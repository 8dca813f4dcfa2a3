import IntentX.Auction
import IntentX.Lib.Ranking

/-!
# Matching of an auction

`sort_bids_by_price`, `filter_bids_for_order_type` and `generate_partial_fills` of
`src/engine/auction_engine.rs` together, and `get_best_bid` of `src/services/bid_service.rs` next
to the sort.

The loop of `generate_partial_fills` is `Lib.greedy` over the net values (`fillLoop_greedy`), so
what it does is what a greedy hand-out does: the used bids are the first of the sorted eligible
ones with a positive net value, and only the last of them can be filled in part.  The net value is
the code's saturating difference; where that differs from `amount_out - fee` the bid alone covers
any amount, so the sums come out the same (`min_sum_net`).

`get_best_bid` keeps the last of the bids that compare equal and the stable sort the first.
-/

namespace IntentX

open Lib

/-! ## Net values -/

section Net

variable {b : SolverBid}

theorem SolverBid.net_pos_iff : 0 < b.net ↔ 0 < b.amountOut - b.fee := by
  unfold SolverBid.net saturatingSub
  omega

theorem SolverBid.net_le (h : 0 < b.net) : b.net ≤ b.amountOut - b.fee := by
  unfold SolverBid.net saturatingSub at *
  omega

/-- A positive net value is exact unless it is the largest an `i64` holds. -/
theorem SolverBid.net_exact (h : 0 < b.net) : b.net = b.amountOut - b.fee ∨ b.net = 2 ^ 63 - 1 := by
  unfold SolverBid.net saturatingSub at *
  omega

/-- Up to an `i64` amount the saturating net values add up as the exact ones. -/
theorem min_sum_net {amount : Int} (h : amount < 2 ^ 63) {bids : List SolverBid}
    (hpos : ∀ b ∈ bids, 0 < b.net) :
    min amount (bids.map SolverBid.net).sum = min amount (bids.map fun b => b.amountOut - b.fee).sum := by
  have key : (bids.map SolverBid.net).sum = (bids.map fun b => b.amountOut - b.fee).sum ∨
      (2 ^ 63 - 1 ≤ (bids.map SolverBid.net).sum ∧
        (bids.map SolverBid.net).sum ≤ (bids.map fun b => b.amountOut - b.fee).sum) ∧
        0 ≤ (bids.map SolverBid.net).sum := by
    induction bids with
    | nil => left; rfl
    | cons b bids ih =>
      have hb : 0 < b.net := hpos b List.mem_cons_self
      have hle := SolverBid.net_le hb
      have hsum : 0 ≤ (bids.map SolverBid.net).sum := by
        apply List.sum_nonneg
        intro x hx
        obtain ⟨c, hc, rfl⟩ := List.mem_map.1 hx
        exact (hpos c (List.mem_cons_of_mem b hc)).le
      have ih := ih fun c hc => hpos c (List.mem_cons_of_mem b hc)
      simp only [List.map_cons, List.sum_cons]
      rcases SolverBid.net_exact hb with hx | hx <;> omega
  omega

end Net

/-! ## Priority -/

theorem SolverBid.before_total (a b : SolverBid) : a.before b ∨ b.before a := by
  unfold SolverBid.before
  omega

theorem SolverBid.before_trans (a b c : SolverBid) (hab : a.before b) (hbc : b.before c) :
    a.before c := by
  unfold SolverBid.before at *
  omega

instance : Std.Total SolverBid.before := ⟨SolverBid.before_total⟩

instance : IsTrans SolverBid SolverBid.before := ⟨SolverBid.before_trans⟩

/-- Whether a bid passes `filter_bids_for_order_type`. -/
def Intent.accepts (intent : Intent) (b : SolverBid) : Prop :=
  intent.orderType = .Limit → intent.limitPrice.getD 0 ≤ b.net

instance (intent : Intent) : DecidablePred intent.accepts := fun b =>
  inferInstanceAs (Decidable (intent.orderType = .Limit → intent.limitPrice.getD 0 ≤ b.net))

theorem filterBidsForOrderType_eq (intent : Intent) (bids : List SolverBid) :
    filterBidsForOrderType intent bids = bids.filter fun b => intent.accepts b := by
  unfold filterBidsForOrderType
  cases ht : intent.orderType <;> simp [Intent.accepts, ht]

/-- The bids an auction over `bids` is decided on. -/
def eligible (intent : Intent) (bids : List SolverBid) : List SolverBid :=
  filterBidsForOrderType intent (sortBidsByPrice bids)

theorem eligible_perm (intent : Intent) (bids : List SolverBid) :
    (eligible intent bids).Perm (bids.filter fun b => intent.accepts b) := by
  rw [eligible, filterBidsForOrderType_eq]
  exact (List.perm_insertionSort SolverBid.before bids).filter _

theorem eligible_sorted (intent : Intent) (bids : List SolverBid) :
    (eligible intent bids).Pairwise SolverBid.before := by
  rw [eligible, filterBidsForOrderType_eq]
  exact (List.pairwise_insertionSort SolverBid.before bids).filter _

/-! ## The loop -/

/-- `f` takes `p.2` from the bid `p.1`. -/
structure Fill.Takes (intentId : Uuid) (f : Fill) (p : SolverBid × Int) : Prop where
  intent : f.intentId = intentId
  solver : f.solverId = p.1.solverId
  price : f.price = p.1.amountOut
  qty : f.qty = p.1.net
  filled : f.filledQty = p.2

theorem fillLoop_greedy (env : Env) (intentId : Uuid) (remaining : Int) (bids : List SolverBid) :
    List.Forall₂ (Fill.Takes intentId) (fillLoop env intentId remaining bids)
      (greedy SolverBid.net remaining bids) := by
  induction bids generalizing env remaining with
  | nil => exact .nil
  | cons bid bids ih =>
    rw [fillLoop, greedy]
    by_cases hrem : remaining ≤ 0
    · rw [if_pos hrem, if_pos hrem]
      exact .nil
    · rw [if_neg hrem, if_neg hrem]
      by_cases hqty : min remaining bid.net ≤ 0
      · simp only [if_pos hqty]
        exact ih env remaining
      · simp only [if_neg hqty]
        exact .cons ⟨rfl, rfl, rfl, rfl, rfl⟩ (ih _ _)

theorem totalFilled_takes {intentId : Uuid} {fills : List Fill} {out : List (SolverBid × Int)}
    (h : List.Forall₂ (Fill.Takes intentId) fills out) : totalFilled fills = served out := by
  induction h with
  | nil => rfl
  | cons hf _ ih =>
    simp only [totalFilled, served, List.map_cons, List.sum_cons] at ih ⊢
    rw [ih, hf.filled]

/-! ## What a match is -/

/-- `fills` fill `intent` from `bids` in price-time order: the bids that could be used, best first,
are those `used` and then the `rest`. -/
structure PriceTime (intent : Intent) (bids : List SolverBid) (fills : List Fill)
    (used rest : List SolverBid) : Prop where
  -- no bid of the list is used twice, and none is missing from the two parts
  each_once : (used ++ rest).Perm (bids.filter fun b => intent.accepts b ∧ 0 < b.net)
  priority : (used ++ rest).Pairwise SolverBid.before
  fills_used : List.Forall₂ (fun f b => f.intentId = intent.id ∧ f.solverId = b.solverId ∧
    f.price = b.amountOut ∧ f.qty = b.net) fills used
  within : ∀ p ∈ fills.zip used, 0 < p.1.filledQty ∧ p.1.filledQty ≤ p.2.net ∧
    p.2.net ≤ p.2.amountOut - p.2.fee
  limit : intent.orderType = .Limit → ∀ b ∈ used, intent.limitPrice.getD 0 ≤ b.net
  -- only the last fill may be partial, and a bid is left over only when nothing is left to fill
  full : ∀ p ∈ (fills.zip used).dropLast, p.1.filledQty = p.2.net
  spent : rest ≠ [] → totalFilled fills = intent.amountIn
  total : totalFilled fills = min intent.amountIn
    ((bids.filter fun b => intent.accepts b ∧ 0 < b.net).map SolverBid.net).sum

/-- The bids that could be used, in the order they are used in. -/
theorem able_eligible_perm (intent : Intent) (bids : List SolverBid) :
    (able SolverBid.net (eligible intent bids)).Perm
      (bids.filter fun b => intent.accepts b ∧ 0 < b.net) := by
  have h := (eligible_perm intent bids).filter fun b => decide (0 < b.net)
  rw [List.filter_filter] at h
  simpa [able, Bool.and_comm] using h

/-- Fills next to the bids they take from, as the pairs of the hand-out. -/
theorem zip_takes {intentId : Uuid} {fills : List Fill} {out : List (SolverBid × Int)}
    (h : List.Forall₂ (Fill.Takes intentId) fills out) :
    (fills.zip (out.map Prod.fst)).map (fun p => (p.2, p.1.filledQty)) = out := by
  induction h with
  | nil => rfl
  | cons hf _ ih => simp [ih, hf.filled]

theorem priceTime_generatePartialFills (env : Env) {intent : Intent} (h : 0 ≤ intent.amountIn)
    (bids : List SolverBid) :
    ∃ used rest, PriceTime intent bids (generatePartialFills env intent (eligible intent bids))
      used rest := by
  obtain ⟨rest, hg⟩ := greedy_spec SolverBid.net h (eligible intent bids)
  have htakes := fillLoop_greedy env intent.id intent.amountIn (eligible intent bids)
  have hperm := able_eligible_perm intent bids
  have hable : ∀ b ∈ able SolverBid.net (eligible intent bids), intent.accepts b ∧ 0 < b.net := by
    intro b hb
    simpa using (List.mem_filter.1 (hperm.subset hb)).2
  generalize greedy SolverBid.net intent.amountIn (eligible intent bids) = out at hg htakes
  have hzip := zip_takes htakes
  have hin : ∀ p ∈ (fillLoop env intent.id intent.amountIn (eligible intent bids)).zip
      (out.map Prod.fst), (p.2, p.1.filledQty) ∈ out := by
    intro p hp
    rw [← hzip]
    exact List.mem_map_of_mem hp
  refine ⟨out.map Prod.fst, rest, hg.split ▸ hperm, ?_, ?_, ?_, ?_, ?_, ?_, ?_⟩
  · rw [← hg.split]
    exact (eligible_sorted intent bids).filter _
  · exact List.forall₂_map_right_iff.2 (htakes.imp fun f p hf => ⟨hf.intent, hf.solver, hf.price, hf.qty⟩)
  · intro p hp
    obtain ⟨hpos, hle⟩ := hg.within _ (hin p hp)
    exact ⟨hpos, hle, SolverBid.net_le (lt_of_lt_of_le hpos hle)⟩
  · intro ht b hb
    have hb' : b ∈ able SolverBid.net (eligible intent bids) := by
      rw [hg.split]
      exact List.mem_append_left _ hb
    exact (hable b hb').1 ht
  · intro p hp
    have hp' : (p.2, p.1.filledQty) ∈ out.dropLast := by
      rw [← hzip, ← List.map_dropLast]
      exact List.mem_map_of_mem (f := fun p : Fill × SolverBid => (p.2, p.1.filledQty)) hp
    exact hg.full _ hp'
  · intro hrest
    rw [generatePartialFills, totalFilled_takes htakes]
    exact hg.spent hrest
  · rw [generatePartialFills, totalFilled_takes htakes, hg.total, (hperm.map SolverBid.net).sum_eq]

/-! ## Overflow -/

/-- A Rust `+` or `-` on `i64` whose exact value is `x`, with overflow checks on. -/
def checkedI64 (x : Int) : Option Int := if inI64 x then some x else none

theorem checkedI64_eq_some_iff {x y : Int} : checkedI64 x = some y ↔ inI64 x ∧ x = y := by
  unfold checkedI64
  split <;> simp_all

/-- `generate_partial_fills` with overflow checks on; `none` is a panic. -/
def fillLoopChecked (env : Env) (intentId : Uuid) (remaining : Int) :
    List SolverBid → Option (List Fill)
  | [] => some []
  | bid :: bids =>
    if remaining ≤ 0 then some []
    else
      let fillQty := min remaining bid.net
      if fillQty ≤ 0 then fillLoopChecked env intentId remaining bids
      else do
        let remaining ← checkedI64 (remaining - fillQty)
        let fills ← fillLoopChecked (env.drop 1) intentId remaining bids
        return Fill.new (env.uuid 0) intentId bid.solverId bid.amountOut bid.net fillQty (env.now 0) ::
          fills

/-- `fills.iter().map(|f| f.filled_qty).sum()` with overflow checks on. -/
def totalFilledChecked (fills : List Fill) : Option Int :=
  fills.foldlM (fun sum f => checkedI64 (sum + f.filledQty)) 0

theorem checkedI64_some {x : Int} (h : -2 ^ 63 ≤ x ∧ x < 2 ^ 63) : checkedI64 x = some x :=
  if_pos (inI64_iff.2 h)

theorem fillLoopChecked_eq (env : Env) (intentId : Uuid) {remaining : Int}
    (h : remaining < 2 ^ 63) (bids : List SolverBid) :
    fillLoopChecked env intentId remaining bids = some (fillLoop env intentId remaining bids) := by
  induction bids generalizing env remaining with
  | nil => rfl
  | cons bid bids ih =>
    rw [fillLoopChecked, fillLoop]
    by_cases hrem : remaining ≤ 0
    · rw [if_pos hrem, if_pos hrem]
    · rw [if_neg hrem, if_neg hrem]
      by_cases hqty : min remaining bid.net ≤ 0
      · simp only [if_pos hqty]
        exact ih env h
      · -- what is left is between zero and what was open
        have hin : checkedI64 (remaining - min remaining bid.net) =
            some (remaining - min remaining bid.net) := checkedI64_some (by omega)
        simp only [if_neg hqty, hin, Option.bind_eq_bind, Option.bind_some]
        rw [ih (env.drop 1) (by omega)]
        rfl

/-- A sum of non-negative terms passes no value larger than its last. -/
theorem totalFilledChecked_eq {fills : List Fill} (hpos : ∀ f ∈ fills, 0 < f.filledQty)
    (h : totalFilled fills < 2 ^ 63) : totalFilledChecked fills = some (totalFilled fills) := by
  suffices key : ∀ sum : Int, 0 ≤ sum → sum + totalFilled fills < 2 ^ 63 →
      fills.foldlM (fun sum f => checkedI64 (sum + f.filledQty)) sum =
        some (sum + totalFilled fills) by
    rw [totalFilledChecked, key 0 (by omega) (by omega), zero_add]
  clear h
  induction fills with
  | nil =>
    intro sum _ _
    simp [totalFilled]
  | cons f fills ih =>
    intro sum hsum hlt
    have hf : 0 < f.filledQty := hpos f List.mem_cons_self
    have hrest : 0 ≤ totalFilled fills := by
      apply List.sum_nonneg
      intro x hx
      obtain ⟨g, hg, rfl⟩ := List.mem_map.1 hx
      exact (hpos g (List.mem_cons_of_mem f hg)).le
    have hcons : totalFilled (f :: fills) = f.filledQty + totalFilled fills := by
      simp [totalFilled]
    rw [List.foldlM_cons, checkedI64_some (by omega), Option.bind_eq_bind, Option.bind_some,
      ih (fun g hg => hpos g (List.mem_cons_of_mem f hg)) _ (by omega) (by omega), hcons, add_assoc]

/-- Matching an intent against any bids: the fills follow price-time priority, add up to as much of
the amount as the bids cover, and nothing overflows on the way. -/
theorem matching_correct (env : Env) (intent : Intent) (bids : List SolverBid)
    (hpos : 0 < intent.amountIn) (hi64 : intent.amountIn < 2 ^ 63) :
    (∃ used rest, PriceTime intent bids (generatePartialFills env intent (eligible intent bids))
      used rest) ∧
    totalFilled (generatePartialFills env intent (eligible intent bids)) = min intent.amountIn
      ((bids.filter fun b => intent.accepts b ∧ 0 < b.amountOut - b.fee).map
        fun b => b.amountOut - b.fee).sum ∧
    fillLoopChecked env intent.id intent.amountIn (eligible intent bids) =
      some (generatePartialFills env intent (eligible intent bids)) ∧
    totalFilledChecked (generatePartialFills env intent (eligible intent bids)) =
      some (totalFilled (generatePartialFills env intent (eligible intent bids))) := by
  obtain ⟨used, rest, hmatch⟩ := priceTime_generatePartialFills env hpos.le bids
  refine ⟨⟨used, rest, hmatch⟩, ?_, fillLoopChecked_eq env intent.id hi64 _, ?_⟩
  · have hexact : (bids.filter fun b => decide (intent.accepts b ∧ 0 < b.amountOut - b.fee)) =
        bids.filter fun b => decide (intent.accepts b ∧ 0 < b.net) := by
      simp only [SolverBid.net_pos_iff]
    rw [hmatch.total, hexact]
    apply min_sum_net hi64
    intro b hb
    have := (List.mem_filter.1 hb).2
    simp only [decide_eq_true_eq] at this
    exact this.2
  · obtain ⟨hfills, htot⟩ :=
      totalFilled_fillLoop env intent.id intent.amountIn (eligible intent bids)
    exact totalFilledChecked_eq (fun f hf => (hfills f hf).1) (by rw [generatePartialFills]; omega)

/-- A limit order of 10 at limit price 3 with bids worth 7, 2, 5 and -1. -/
def limitOrder : Intent :=
  { Intent.new 1 "u" "ETH" "USDC" 10 0 0 0 with orderType := .Limit, limitPrice := some 3 }

def limitBids : List SolverBid :=
  [⟨2, 1, "a", 7, 0, 0⟩, ⟨3, 1, "b", 3, 1, 0⟩, ⟨4, 1, "c", 5, 0, 0⟩, ⟨5, 1, "d", 1, 2, 0⟩]

theorem matching_limitOrder :
    totalFilled (generatePartialFills ⟨id, fun _ => 0⟩ limitOrder (eligible limitOrder limitBids)) =
        10 ∧
      ∃ used rest, PriceTime limitOrder limitBids
        (generatePartialFills ⟨id, fun _ => 0⟩ limitOrder (eligible limitOrder limitBids)) used rest :=
  ⟨by decide +kernel,
    (matching_correct ⟨id, fun _ => 0⟩ limitOrder limitBids (by decide +kernel) (by decide +kernel)).1⟩

/-! ## The best bid -/

/-- The comparator of `get_best_bid`. -/
def SolverBid.compareBest (a b : SolverBid) : Ordering :=
  (compare a.net b.net).then (compare b.timestamp a.timestamp)

/-- `BidService::get_best_bid` over the stored bids. -/
def getBestBid (bids : List SolverBid) : Option SolverBid := maxBy SolverBid.compareBest bids

theorem SolverBid.compareBest_gt_iff (a b : SolverBid) : a.compareBest b = .gt ↔ ¬ b.before a := by
  unfold SolverBid.compareBest SolverBid.before
  rcases lt_trichotomy a.net b.net with h | h | h
  · simp [Ordering.then, compare_lt_iff_lt.2 h, h]
  · rw [h, compare_eq_iff_eq.2 rfl]
    simp [Ordering.then, compare_gt_iff_gt]
  · simp [Ordering.then, compare_gt_iff_gt.2 h]
    omega

/-- The bid shown as the best is the one that wins iff no other bid has its net value and its
timestamp.  Bids have distinct ids, so a list of them has no bid twice. -/
theorem getBestBid_eq_head_iff (bids : List SolverBid) (hids : (bids.map (·.id)).Nodup) :
    getBestBid bids = (sortBidsByPrice bids).head? ↔
      ∀ a ∈ bids, ∀ b ∈ bids, (∀ c ∈ bids, a.before c) → a.net = b.net → a.timestamp = b.timestamp →
        a = b := by
  rw [getBestBid, sortBidsByPrice, maxBy_eq_head_iff SolverBid.before_total SolverBid.before_trans
    SolverBid.compareBest_gt_iff hids.of_map]
  constructor
  · intro h a ha b hb htop hnet htime
    refine h a ha b hb htop fun c hc => ?_
    have := htop c hc
    unfold SolverBid.before at this ⊢
    omega
  · intro h a ha b hb htop htop'
    have hab := htop b hb
    have hba := htop' a ha
    unfold SolverBid.before at hab hba
    exact h a ha b hb htop (by omega) (by omega)

theorem getBestBid_limitBids :
    getBestBid limitBids = (sortBidsByPrice limitBids).head? :=
  (getBestBid_eq_head_iff limitBids (by decide +kernel)).2 (by decide +kernel)

/-- Two bids of one net value and one time: the later row is shown, the earlier one wins. -/
theorem getBestBid_tie :
    getBestBid [⟨2, 1, "a", 7, 0, 0⟩, ⟨3, 1, "b", 8, 1, 0⟩] = some ⟨3, 1, "b", 8, 1, 0⟩ ∧
      (sortBidsByPrice [⟨2, 1, "a", 7, 0, 0⟩, ⟨3, 1, "b", 8, 1, 0⟩]).head? =
        some ⟨2, 1, "a", 7, 0, 0⟩ := by
  decide +kernel

end IntentX
