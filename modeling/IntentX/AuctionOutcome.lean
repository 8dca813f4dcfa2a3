import IntentX.IntentFaults
import IntentX.Matching
import IntentX.MinOutput
import IntentX.Release

/-!
# The outcome of an auction and its fills

`close_auction` of `src/engine/auction_engine.rs` when any of its statements and its message can be
refused, next to `validate_bid` of `src/risk/service.rs`, which lets bids with no positive net value
through ("degenerate bid, will lose auction anyway").

The engine decides on the filtered bids and on the fills it generates; what is stored is another
thing, because the error of an insert is dropped.  So the status fits the stored fills when the bids
bring out a fill at all and as many inserts go through as the status says (`outcome_iff`).
-/

namespace IntentX

open Lib IntentFaults

/-! ## Bids that are accepted -/

/-- The rejections of a bid; prices and percentages are the texts that are printed. -/
inductive BidRejection where
  | risk (r : RiskRejection)
  | BidPriceDeviation (bidPrice oraclePrice deviationPct : String)
  | CrossMarketArbitrage (marketAPrice marketBPrice spreadPct : String)
  deriving DecidableEq, Repr

/-- What the services answer: the markets, and the two checks on floating-point prices, which look
at the price `amount_in / net_bid`. -/
structure BidView where
  markets : Option (List Market)
  vsOracle : (amountIn netBid : Int) → Market → Option BidRejection
  crossMarket : (amountIn netBid : Int) → Asset → Option BidRejection

/-- `RiskEngine::validate_bid`. -/
def validateBid (view : BidView) (tokenIn tokenOut : String) (amountOut fee amountIn : Int) :
    Except BidRejection Unit := do
  if amountIn = 0 then return
  let some assetIn := parseAsset tokenIn | throw (.risk (.InvalidAsset (upperText tokenIn)))
  let some assetOut := parseAsset tokenOut | throw (.risk (.InvalidAsset (upperText tokenOut)))
  let some market := view.markets.bind (findMarket · assetIn assetOut) | throw (.risk .MarketNotFound)
  let netBid := saturatingSub amountOut fee
  -- degenerate bid, will lose auction anyway
  if netBid ≤ 0 then return
  if let some r := view.vsOracle amountIn netBid market then throw r
  if let some r := view.crossMarket amountIn netBid assetIn then throw r

/-! ## A run in which requests are refused -/

/-- The bids that `close_auction` decides on: a read that fails finds none. -/
def seenBids (f : Faults) (w : World) (i : Intent) : List SolverBid :=
  if f.pool (.selectIntent i.id) = none ∧ f.pool (.selectBids i.id) = none then w.qualifying i else []

/-- The fills whose insert is answered. -/
def stored (f : Faults) (fills : List Fill) : List Fill :=
  fills.filter fun fill => (f.pool (.insertFill fill)).isNone

/-- The status that `close_auction` writes. -/
def verdict (env : Env) (i : Intent) (bids : List SolverBid) : IntentStatus :=
  if bids.isEmpty then .Failed
  else if i.amountIn ≤ totalFilled (generatePartialFills env i bids) then .Matched
  else .PartiallyFilled

/-- The status is written: the intent is found and the `UPDATE` is answered. -/
def Written (f : Faults) (env : Env) (w : World) (i : Intent) : Prop :=
  f.pool (.selectIntent i.id) = none ∧
    f.pool (.setIntentStatus i.id (verdict env i (seenBids f w i))) = none

instance (f : Faults) (env : Env) (w : World) (i : Intent) : Decidable (Written f env w i) :=
  inferInstanceAs (Decidable (_ ∧ _))

/-- The match event, if there is one. -/
def announcement (f : Faults) (env : Env) (w : World) (i : Intent) : Option Event :=
  matchEvent { i with status := verdict env i (seenBids f w i) } (seenBids f w i)
    (generatePartialFills env i (seenBids f w i))

/-- There is a match event and Redis takes it. -/
def Announced (f : Faults) (env : Env) (w : World) (i : Intent) : Prop :=
  ∃ e, announcement f env w i = some e ∧ f.bus.takes e = true

section Run

variable {f : Faults} {env : Env} {w : World} {E : Type}

theorem acts_sql_ok {o : Stmt} (h : f.pool o = none) :
    f.acts (.sql o) w = execAct .release f.bus (.sql o) w := by
  simp only [Faults.acts, h]

/-- A statement that is refused, where its error is dropped. -/
theorem exec_trySql_refused {o : Stmt} (h : f.pool o ≠ none) :
    Call.exec f.acts (trySql o : Task E _) w = (.ok none, w) := by
  obtain ⟨e, he⟩ := Option.ne_none_iff_exists'.1 h
  have hacts : f.acts (.sql o) w = (.error (.db e), w) := by simp only [Faults.acts, he]
  show ((.ok (f.acts (.sql o) w).1.toOption : Except E _), (f.acts (.sql o) w).2) = _
  rw [hacts]
  rfl

theorem exec_trySql_ok {o : Stmt} {r : o.Reply} {w' : World} (h : f.pool o = none)
    (hx : execAct .release f.bus (.sql o) w = (.ok r, w')) :
    Call.exec f.acts (trySql o : Task E _) w = (.ok (some r), w') := by
  show ((.ok (f.acts (.sql o) w).1.toOption : Except E _), (f.acts (.sql o) w).2) = _
  rw [acts_sql_ok h, hx]
  rfl

/-- Of a list of new fills the ones that are answered are stored, in order. -/
theorem insertFills_stored {fills : List Fill} (hnew : ∀ fl ∈ fills, w.fill fl.id = none)
    (hnodup : (fills.map (·.id)).Nodup) :
    ∃ t : Table Fill Fill.id Fill.id, t.rows = w.fills.rows ++ stored f fills ∧
      Call.exec f.acts (insertFills fills : Task E Unit) w = (.ok (), { w with fills := t }) := by
  induction fills generalizing w with
  | nil => exact ⟨w.fills, by simp [stored], rfl⟩
  | cons fl fls ih =>
    rw [List.map_cons, List.nodup_cons] at hnodup
    have hrest : ∀ g ∈ fls, w.fill g.id = none := fun g hg => hnew g (List.mem_cons_of_mem fl hg)
    unfold insertFills
    by_cases hpool : f.pool (.insertFill fl) = none
    · obtain ⟨t₁, ht₁, hexec⟩ := insertFill_fresh .release f.bus (hnew fl List.mem_cons_self)
      have hnew₁ : ∀ g ∈ fls, World.fill { w with fills := t₁ } g.id = none := by
        intro g hg
        have hne : g.id ≠ fl.id := fun he => hnodup.1 (he ▸ List.mem_map_of_mem hg)
        have hfind : World.fill { w with fills := t₁ } g.id =
            if g.id = fl.id then some fl else w.fill g.id := Table.find_insert_pk ht₁ g.id
        rw [hfind, if_neg hne]
        exact hrest g hg
      obtain ⟨t, ht, hx⟩ := ih hnew₁ hnodup.2
      refine ⟨t, ?_, ?_⟩
      · rw [ht, Table.rows_insert ht₁]
        simp [stored, hpool]
      · rw [Call.exec_bind, exec_trySql_ok hpool hexec]
        exact hx
    · obtain ⟨t, ht, hx⟩ := ih hrest hnodup.2
      refine ⟨t, ?_, ?_⟩
      · rw [ht]
        simp [stored, hpool]
      · rw [Call.exec_bind, exec_trySql_refused hpool]
        exact hx

/-- The intent after a status write that may be refused. -/
def statusWrite (f : Faults) (w : World) (id : Uuid) (st : IntentStatus) : World :=
  if f.pool (.setIntentStatus id st) = none then w.setStatus id st else w

theorem exec_tryStatus_faults (id : Uuid) (st : IntentStatus) :
    Call.exec f.acts (tryStatus id st : Task E Unit) w = (.ok (), statusWrite f w id st) := by
  unfold tryStatus statusWrite
  by_cases h : f.pool (.setIntentStatus id st) = none
  · rw [if_pos h, Call.exec_bind, exec_trySql_ok h rfl]
    rfl
  · rw [if_neg h, Call.exec_bind, exec_trySql_refused h]
    rfl

theorem statusWrite_status (st : IntentStatus) {id : Uuid} {st₀ : IntentStatus} (h : w.status id = some st₀) :
    (statusWrite f w id st).status id =
      some (if f.pool (.setIntentStatus id st) = none then st else st₀) := by
  unfold statusWrite
  split
  · rw [World.status_setStatus_self, h]
    rfl
  · exact h

theorem statusWrite_fills (id : Uuid) (st : IntentStatus) :
    (statusWrite f w id st).fills = w.fills ∧ (statusWrite f w id st).events = w.events := by
  unfold statusWrite
  split <;> exact ⟨rfl, rfl⟩

theorem exec_say (e : Event) :
    (Call.exec f.acts (say e) w).2 =
      if f.bus.takes e then { w with events := w.events ++ [e] } else w := by
  show (execAct .release f.bus (.publish e) w).2 = _
  simp only [execAct]
  split <;> rfl

end Run

/-- What `close_auction` leaves behind. -/
structure Closed (f : Faults) (env : Env) (i : Intent) (w w' : World) : Prop where
  fills : w'.fills.rows = w.fills.rows ++
    stored f (generatePartialFills env i (seenBids f w i))
  status : w'.status i.id =
    some (if Written f env w i then verdict env i (seenBids f w i) else i.status)
  events : ∃ evs, w'.events = w.events ++ evs ∧
    ((∃ j b, Event.IntentMatched j b ∈ evs) ↔ Announced f env w i)

section Closed

variable {f : Faults} {env : Env} {w : World} {i : Intent}

theorem status_of_intent (hi : w.intent i.id = some i) : w.status i.id = some i.status := by
  rw [World.status, hi]
  rfl

/-- A match event is made from the first fill, so there is none without fills. -/
theorem matchEvent_nil (j : Intent) (bids : List SolverBid) : matchEvent j bids [] = none := rfl

theorem matchEvent_matched {j : Intent} {bids : List SolverBid} {fills : List Fill} {e : Event}
    (h : matchEvent j bids fills = some e) : ∃ b, e = .IntentMatched j b := by
  obtain ⟨best, -, hb⟩ := Option.bind_eq_some_iff.1 h
  obtain ⟨b, -, rfl⟩ := Option.map_eq_some_iff.1 hb
  exact ⟨b, rfl⟩

theorem generatePartialFills_nil (env : Env) (i : Intent) : generatePartialFills env i [] = [] := rfl

/-- The run when the bids it sees are empty: nothing is stored. -/
theorem closed_of_empty (hnil : seenBids f w i = []) {w' : World}
    (hfills : w'.fills = w.fills)
    (hstatus : w'.status i.id = some (if Written f env w i then .Failed else i.status))
    (hevents : ∃ evs, w'.events = w.events ++ evs ∧ ∀ j b, Event.IntentMatched j b ∉ evs) :
    Closed f env i w w' := by
  obtain ⟨evs, hevs, hnot⟩ := hevents
  refine ⟨?_, ?_, evs, hevs, ?_⟩
  · rw [hfills, hnil, generatePartialFills_nil]
    simp [stored]
  · rw [hstatus, hnil]
    rfl
  · refine iff_of_false (fun ⟨j, b, hmem⟩ => hnot j b hmem) ?_
    rintro ⟨e, he, -⟩
    rw [announcement, hnil, generatePartialFills_nil, matchEvent_nil] at he
    cases he

/-- Where no match is announced, none is published. -/
theorem closed_of_silent {w₁ : World}
    (hfills : w₁.fills.rows = w.fills.rows ++ stored f (generatePartialFills env i (seenBids f w i)))
    (hstatus : w₁.status i.id =
      some (if Written f env w i then verdict env i (seenBids f w i) else i.status))
    (hevents : w₁.events = w.events) (hnone : ¬ Announced f env w i) : Closed f env i w w₁ := by
  refine ⟨hfills, hstatus, [], ?_, ?_⟩
  · rw [List.append_nil]
    exact hevents
  · exact iff_of_false (fun ⟨_, _, hmem⟩ => by cases hmem) hnone

/-- The run from the point where the fills are stored and the status is written. -/
theorem closed_of_announced {w₁ : World}
    (hfills : w₁.fills.rows = w.fills.rows ++ stored f (generatePartialFills env i (seenBids f w i)))
    (hstatus : w₁.status i.id =
      some (if Written f env w i then verdict env i (seenBids f w i) else i.status))
    (hevents : w₁.events = w.events) :
    Closed f env i w ((announcement f env w i).elim w₁ fun e => (Call.exec f.acts (say e) w₁).2) := by
  cases he : announcement f env w i with
  | none =>
    refine closed_of_silent hfills hstatus hevents ?_
    rintro ⟨e, he', -⟩
    cases he.symm.trans he'
  | some e =>
    rw [Option.elim_some, exec_say]
    obtain ⟨b, rfl⟩ := matchEvent_matched he
    split
    · next htakes =>
      refine ⟨hfills, hstatus, [_], congrArg (· ++ [_]) hevents, ?_⟩
      exact iff_of_true ⟨_, b, List.mem_singleton.2 rfl⟩ ⟨_, he, htakes⟩
    · next htakes =>
      refine closed_of_silent hfills hstatus hevents ?_
      rintro ⟨e, he', ht'⟩
      cases he.symm.trans he'
      exact htakes ht'

/-- `close_auction` from the point where the bids are known. -/
theorem closed_closeWith (hi : w.intent i.id = some i) (hfresh : env.FreshFills w)
    (hread : f.pool (.selectIntent i.id) = none) :
    Closed f env i w (Call.exec f.acts (closeWith env i (seenBids f w i)) w).2 := by
  have hst := status_of_intent hi
  have hwritten : (if Written f env w i then verdict env i (seenBids f w i) else i.status) =
      if f.pool (.setIntentStatus i.id (verdict env i (seenBids f w i))) = none then
        verdict env i (seenBids f w i) else i.status := by
    simp only [Written, hread, true_and]
  unfold closeWith
  by_cases hempty : (seenBids f w i).isEmpty
  · have hnil : seenBids f w i = [] := List.isEmpty_iff.1 hempty
    have hfailed : verdict env i (seenBids f w i) = .Failed := if_pos hempty
    rw [if_pos hempty, Call.exec_bind, exec_tryStatus_faults]
    show Closed f env i w (Call.exec f.acts (say _) _).2
    rw [exec_say]
    rw [hfailed] at hwritten
    have hsame := statusWrite_fills (f := f) (w := w) i.id .Failed
    have hstatus := statusWrite_status (f := f) .Failed hst
    rw [← hwritten] at hstatus
    split
    · exact closed_of_empty hnil hsame.1 hstatus
        ⟨[_], by rw [hsame.2], fun j b hmem => by cases List.mem_singleton.1 hmem⟩
    · exact closed_of_empty hnil hsame.1 hstatus
        ⟨[], by rw [hsame.2, List.append_nil], fun j b hmem => by cases hmem⟩
  · rw [if_neg hempty]
    have hverdict : verdict env i (seenBids f w i) =
        if i.amountIn ≤ totalFilled (generatePartialFills env i (seenBids f w i)) then .Matched
        else .PartiallyFilled := if_neg hempty
    obtain ⟨hnew, hnodup⟩ := generated_fresh (i := i) hfresh (seenBids f w i)
    obtain ⟨t, ht, hins⟩ := insertFills_stored (E := String) (f := f) hnew hnodup
    have hstatus := statusWrite_status (f := f) (w := { w with fills := t })
      (verdict env i (seenBids f w i)) hst
    rw [← hwritten] at hstatus
    obtain ⟨hsame, hevs⟩ := statusWrite_fills (f := f) (w := { w with fills := t }) i.id
      (verdict env i (seenBids f w i))
    simp only
    rw [Call.exec_bind, hins]
    show Closed f env i w (Call.exec f.acts (tryStatus i.id _ >>= _) _).2
    rw [← hverdict, Call.exec_bind, exec_tryStatus_faults]
    have hclosed := closed_of_announced ((congrArg Table.rows hsame).trans ht) hstatus hevs
    unfold announcement at hclosed
    show Closed f env i w (Call.exec f.acts _ (statusWrite f { w with fills := t } i.id _)).2
    cases he : matchEvent { i with status := verdict env i (seenBids f w i) } (seenBids f w i)
        (generatePartialFills env i (seenBids f w i)) with
    | none =>
      rw [he] at hclosed
      exact hclosed
    | some e =>
      rw [he] at hclosed
      exact hclosed

theorem closed_closeAuction (hi : w.intent i.id = some i) (hfresh : env.FreshFills w) :
    Closed f env i w (Call.exec f.acts (closeAuction env i.id) w).2 := by
  unfold closeAuction
  by_cases hread : f.pool (.selectIntent i.id) = none
  · have hget : Call.exec f.acts (getIntent i.id : Task String _) w = (.ok (some i), w) := by
      rw [getIntent, Call.exec_bind, exec_trySql_ok hread rfl]
      show (Except.ok (Option.join (some (w.intent i.id))), w) = _
      rw [hi]
      rfl
    have hbids : Call.exec f.acts (getBids i.id : Task String _) w =
        (.ok (if f.pool (.selectBids i.id) = none then w.bidsOf i.id else []), w) := by
      rw [getBids, Call.exec_bind]
      by_cases hb : f.pool (.selectBids i.id) = none
      · rw [exec_trySql_ok hb rfl, if_pos hb]
        rfl
      · rw [exec_trySql_refused hb, if_neg hb]
        rfl
    have hseen : filterBidsForOrderType i (sortBidsByPrice
        (if f.pool (.selectBids i.id) = none then w.bidsOf i.id else [])) = seenBids f w i := by
      unfold seenBids
      by_cases hb : f.pool (.selectBids i.id) = none
      · rw [if_pos hb, if_pos ⟨hread, hb⟩]
        rfl
      · rw [if_neg hb, if_neg fun h => hb h.2]
        rw [filterBidsForOrderType_eq]
        rfl
    rw [Call.exec_bind, hget]
    show Closed f env i w (Call.exec f.acts (getBids i.id >>= fun allBids =>
      closeWith env i (filterBidsForOrderType i (sortBidsByPrice allBids))) w).2
    rw [Call.exec_bind, hbids]
    show Closed f env i w (Call.exec f.acts (closeWith env i (filterBidsForOrderType i
      (sortBidsByPrice (if f.pool (.selectBids i.id) = none then w.bidsOf i.id else [])))) w).2
    rw [hseen]
    exact closed_closeWith hi hfresh hread
  · -- the intent is not found: the call ends here
    have hget : Call.exec f.acts (getIntent i.id : Task String _) w = (.ok none, w) := by
      rw [getIntent, Call.exec_bind, exec_trySql_refused hread]
      rfl
    have hnil : seenBids f w i = [] := if_neg fun h => hread h.1
    rw [Call.exec_bind, hget]
    show Closed f env i w w
    refine closed_of_empty hnil rfl ?_ ⟨[], by rw [List.append_nil], fun j b hmem => by cases hmem⟩
    rw [status_of_intent hi, if_neg fun h => hread h.1]

end Closed

/-! ## Fills that are stored -/

section Fills

variable {f : Faults} {env : Env} {i : Intent} {bids : List SolverBid} {fills : List Fill}

/-- The sum of the positive net values. -/
def coverage (bids : List SolverBid) : Int := ((able SolverBid.net bids).map SolverBid.net).sum

theorem totalFilled_generate (env : Env) (bids : List SolverBid) (h : 0 ≤ i.amountIn) :
    totalFilled (generatePartialFills env i bids) = min i.amountIn (coverage bids) := by
  obtain ⟨rest, hg⟩ := greedy_spec SolverBid.net h bids
  rw [generatePartialFills, totalFilled_takes (fillLoop_greedy env i.id i.amountIn bids), hg.total]
  rfl

theorem coverage_pos_iff : 0 < coverage bids ↔ ∃ b ∈ bids, 0 < b.net := by
  unfold coverage able
  induction bids with
  | nil => simp
  | cons b bids ih =>
    have hnn := sum_able_nonneg SolverBid.net bids
    unfold able at hnn
    by_cases hb : 0 < b.net
    · simp only [List.filter_cons, hb, decide_true, if_true, List.map_cons, List.sum_cons]
      exact iff_of_true (by omega) ⟨b, List.mem_cons_self, hb⟩
    · simp only [List.filter_cons, hb, decide_false, Bool.false_eq_true, if_false, ih,
        List.mem_cons, exists_eq_or_imp, false_or]

theorem totalFilled_pos (hpos : ∀ fl ∈ fills, 0 < fl.filledQty) (hne : fills ≠ []) :
    0 < totalFilled fills := by
  cases fills with
  | nil => exact absurd rfl hne
  | cons fl fls =>
    have hfl := hpos fl List.mem_cons_self
    have hrest : 0 ≤ (fls.map (·.filledQty)).sum := by
      apply List.sum_nonneg
      intro x hx
      obtain ⟨g, hg, rfl⟩ := List.mem_map.1 hx
      exact (hpos g (List.mem_cons_of_mem fl hg)).le
    simp only [totalFilled, List.map_cons, List.sum_cons]
    omega

theorem generate_pos (env : Env) (i : Intent) (bids : List SolverBid) :
    ∀ fl ∈ generatePartialFills env i bids, 0 < fl.filledQty :=
  fun fl hfl => ((totalFilled_fillLoop env i.id i.amountIn bids).1 fl hfl).1

/-- There are fills iff something is asked for and some bid offers something. -/
theorem generate_ne_nil_iff (env : Env) (i : Intent) (bids : List SolverBid) :
    generatePartialFills env i bids ≠ [] ↔ 0 < i.amountIn ∧ ∃ b ∈ bids, 0 < b.net := by
  constructor
  · intro hne
    have hpos := totalFilled_pos (generate_pos env i bids) hne
    have hle := (totalFilled_fillLoop env i.id i.amountIn bids).2
    change totalFilled (generatePartialFills env i bids) ≤ _ at hle
    have hamount : 0 < i.amountIn := by omega
    rw [totalFilled_generate env bids hamount.le] at hpos
    exact ⟨hamount, coverage_pos_iff.1 (by omega)⟩
  · rintro ⟨hamount, hb⟩ hnil
    have htotal := totalFilled_generate env bids hamount.le
    have hcov := coverage_pos_iff.2 hb
    rw [hnil] at htotal
    simp only [totalFilled, List.map_nil, List.sum_nil] at htotal
    omega

/-- What is stored adds up to all of the fills iff all of them are. -/
theorem totalFilled_stored (hpos : ∀ fl ∈ fills, 0 < fl.filledQty) :
    totalFilled (stored f fills) ≤ totalFilled fills ∧
      (totalFilled (stored f fills) = totalFilled fills ↔
        ∀ fl ∈ fills, f.pool (.insertFill fl) = none) := by
  induction fills with
  | nil => simp [stored]
  | cons fl fls ih =>
    have hfl := hpos fl List.mem_cons_self
    obtain ⟨hle, heq⟩ := ih fun g hg => hpos g (List.mem_cons_of_mem fl hg)
    simp only [totalFilled] at hle heq ⊢
    by_cases hp : f.pool (.insertFill fl) = none
    · have hs : stored f (fl :: fls) = fl :: stored f fls := by simp [stored, hp]
      rw [hs]
      simp only [List.map_cons, List.sum_cons, List.forall_mem_cons, hp, true_and, ← heq]
      omega
    · have hs : stored f (fl :: fls) = stored f fls := by simp [stored, hp]
      rw [hs]
      simp only [List.map_cons, List.sum_cons, List.forall_mem_cons, hp, false_and, iff_false]
      omega

theorem stored_ne_nil_iff (fills : List Fill) :
    stored f fills ≠ [] ↔ ∃ fl ∈ fills, f.pool (.insertFill fl) = none := by
  unfold stored
  rw [ne_eq, List.filter_eq_nil_iff]
  simp

theorem stored_pos (hpos : ∀ fl ∈ fills, 0 < fl.filledQty) : ∀ fl ∈ stored f fills, 0 < fl.filledQty :=
  fun fl hfl => hpos fl (List.mem_filter.1 hfl).1

end Fills

/-! ## When the outcome fits -/

/-- The status of the intent and the match event fit the fills that were inserted. -/
def Consistent (i : Intent) (w w' : World) : Prop :=
  ∃ inserted evs, w'.fills.rows = w.fills.rows ++ inserted ∧ w'.events = w.events ++ evs ∧
    (w'.status i.id = some .Matched ↔ totalFilled inserted = i.amountIn) ∧
    (w'.status i.id = some .PartiallyFilled ↔
      inserted ≠ [] ∧ totalFilled inserted < i.amountIn) ∧
    (w'.status i.id = some .Failed ↔ inserted = []) ∧
    ((∃ j b, Event.IntentMatched j b ∈ evs) ↔ inserted ≠ [])

/-- The status that fits a list of fills. -/
def fitting (amount : Int) (fills : List Fill) : IntentStatus :=
  if fills = [] then .Failed else if totalFilled fills < amount then .PartiallyFilled else .Matched

/-- The bids decide the auction: there are none, or one of them offers something, as many of the
fills are answered as the status will say, and the match goes out. -/
def Decided (f : Faults) (env : Env) (w : World) (i : Intent) : Prop :=
  seenBids f w i = [] ∨
    0 < i.amountIn ∧ (∃ b ∈ seenBids f w i, 0 < b.net) ∧
    (i.amountIn ≤ coverage (seenBids f w i) →
      ∀ fl ∈ generatePartialFills env i (seenBids f w i), f.pool (.insertFill fl) = none) ∧
    (coverage (seenBids f w i) < i.amountIn →
      ∃ fl ∈ generatePartialFills env i (seenBids f w i), f.pool (.insertFill fl) = none) ∧
    Announced f env w i

section Outcome

variable {f : Faults} {env : Env} {w w' : World} {i : Intent}

/-- Which status fits a list of fills, of positive quantities that do not exceed the amount. -/
theorem eq_fitting_iff {amount : Int} {fills : List Fill} {st : IntentStatus} {told : Prop}
    (hpos : ∀ fl ∈ fills, 0 < fl.filledQty) (hle : totalFilled fills ≤ max 0 amount) :
    ((st = .Matched ↔ totalFilled fills = amount) ∧
      (st = .PartiallyFilled ↔ fills ≠ [] ∧ totalFilled fills < amount) ∧
      (st = .Failed ↔ fills = []) ∧ (told ↔ fills ≠ [])) ↔
    amount ≠ 0 ∧ st = fitting amount fills ∧ (told ↔ fills ≠ []) := by
  unfold fitting
  by_cases hnil : fills = []
  · subst hnil
    have hzero : totalFilled [] = 0 := rfl
    rw [hzero, if_pos rfl]
    constructor
    · rintro ⟨hm, -, hfail, htold⟩
      have hst : st = .Failed := hfail.2 rfl
      rw [hst] at hm
      exact ⟨fun h0 => by simpa using hm.2 h0.symm, hst, htold⟩
    · rintro ⟨h0, rfl, htold⟩
      simp [htold, Ne.symm h0]
  · have hsum := totalFilled_pos hpos hnil
    rw [if_neg hnil]
    have h0 : amount ≠ 0 := by omega
    simp only [ne_eq, h0, not_false_eq_true, true_and, hnil, iff_false, iff_true]
    by_cases hlt : totalFilled fills < amount
    · have hne : totalFilled fills ≠ amount := by omega
      simp only [hne, hlt, if_true, iff_false, iff_true]
      constructor
      · rintro ⟨-, hst, -, htold⟩
        exact ⟨hst, htold⟩
      · rintro ⟨rfl, htold⟩
        exact ⟨nofun, rfl, nofun, htold⟩
    · have he : totalFilled fills = amount := by omega
      simp only [he, lt_irrefl, if_false, iff_false, iff_true]
      constructor
      · rintro ⟨hst, -, -, htold⟩
        exact ⟨hst, htold⟩
      · rintro ⟨rfl, htold⟩
        exact ⟨rfl, nofun, nofun, htold⟩

theorem consistent_iff (hc : Closed f env i w w') :
    Consistent i w w' ↔ i.amountIn ≠ 0 ∧
      (if Written f env w i then verdict env i (seenBids f w i) else i.status) =
        fitting i.amountIn (stored f (generatePartialFills env i (seenBids f w i))) ∧
      (Announced f env w i ↔ stored f (generatePartialFills env i (seenBids f w i)) ≠ []) := by
  obtain ⟨evs, hevs, hann⟩ := hc.events
  have hpos := generate_pos env i (seenBids f w i)
  have hle := (totalFilled_stored (f := f) hpos).1.trans (totalFilled_fillLoop env i.id i.amountIn _).2
  rw [← eq_fitting_iff (stored_pos hpos) hle]
  unfold Consistent
  simp only [hc.status, Option.some.injEq]
  constructor
  · rintro ⟨ins, evs', hfills, hevs', h⟩
    cases List.append_cancel_left (hc.fills.symm.trans hfills)
    cases List.append_cancel_left (hevs.symm.trans hevs')
    rwa [hann] at h
  · intro h
    refine ⟨_, evs, hc.fills, hevs, ?_⟩
    rwa [hann]

theorem verdict_of_bids (hbids : seenBids f w i ≠ []) :
    verdict env i (seenBids f w i) =
      if i.amountIn ≤ totalFilled (generatePartialFills env i (seenBids f w i)) then .Matched
      else .PartiallyFilled :=
  if_neg (by simpa using hbids)

/-- A status that the bids lead to is never `Failed`, so where it fits something is stored. -/
theorem stored_of_fits {fills : List Fill} (hbids : seenBids f w i ≠ [])
    (hfit : verdict env i (seenBids f w i) = fitting i.amountIn fills) : fills ≠ [] := by
  intro he
  rw [verdict_of_bids hbids, fitting, if_pos he] at hfit
  split at hfit <;> cases hfit

theorem fits_of_no_bids (hnil : seenBids f w i = []) :
    verdict env i (seenBids f w i) =
        fitting i.amountIn (stored f (generatePartialFills env i (seenBids f w i))) ∧
      (Announced f env w i ↔ stored f (generatePartialFills env i (seenBids f w i)) ≠ []) := by
  refine ⟨?_, iff_of_false ?_ ?_⟩
  · rw [hnil]
    rfl
  · rintro ⟨e, he, -⟩
    rw [announcement, hnil, generatePartialFills_nil, matchEvent_nil] at he
    cases he
  · rw [hnil, generatePartialFills_nil]
    exact fun h => h rfl

theorem decided_of_fits (hbids : seenBids f w i ≠ [])
    (hfit : verdict env i (seenBids f w i) =
      fitting i.amountIn (stored f (generatePartialFills env i (seenBids f w i))))
    (hann : stored f (generatePartialFills env i (seenBids f w i)) ≠ [] → Announced f env w i) :
    Decided f env w i := by
  have hne := stored_of_fits hbids hfit
  obtain ⟨fl, hfl, hans⟩ := (stored_ne_nil_iff _).1 hne
  obtain ⟨hamount, hb⟩ := (generate_ne_nil_iff env i (seenBids f w i)).1 (List.ne_nil_of_mem hfl)
  have htotal := totalFilled_generate env (seenBids f w i) hamount.le
  refine .inr ⟨hamount, hb, fun hcov => ?_, fun _ => ⟨fl, hfl, hans⟩, hann hne⟩
  have hsum := totalFilled_stored (f := f) (generate_pos env i (seenBids f w i))
  apply hsum.2.1
  rw [verdict_of_bids hbids, fitting, if_neg hne, if_pos (by omega)] at hfit
  split at hfit
  · cases hfit
  · omega

theorem fits_of_decided (hbids : seenBids f w i ≠ []) (hd : Decided f env w i) :
    verdict env i (seenBids f w i) =
        fitting i.amountIn (stored f (generatePartialFills env i (seenBids f w i))) ∧
      (Announced f env w i ↔ stored f (generatePartialFills env i (seenBids f w i)) ≠ []) := by
  obtain ⟨hamount, hb, hall, hsome, hann⟩ := hd.resolve_left hbids
  have hsum := totalFilled_stored (f := f) (generate_pos env i (seenBids f w i))
  have htotal := totalFilled_generate env (seenBids f w i) hamount.le
  have hfills := (generate_ne_nil_iff env i (seenBids f w i)).2 ⟨hamount, hb⟩
  rw [verdict_of_bids hbids]
  by_cases hcov : i.amountIn ≤ coverage (seenBids f w i)
  · have heq := hsum.2.2 (hall hcov)
    have hne : stored f (generatePartialFills env i (seenBids f w i)) ≠ [] := by
      obtain ⟨fl, hfl⟩ := List.exists_mem_of_ne_nil _ hfills
      exact (stored_ne_nil_iff _).2 ⟨fl, hfl, hall hcov fl hfl⟩
    rw [fitting, if_neg hne, if_pos (by omega), if_neg (by omega)]
    exact ⟨rfl, iff_of_true hann hne⟩
  · have hne := (stored_ne_nil_iff _).2 (hsome (by omega))
    rw [fitting, if_neg hne, if_neg (by omega), if_pos (by omega)]
    exact ⟨rfl, iff_of_true hann hne⟩

/-- The status that the bids lead to is the one that fits what is stored iff the bids decide. -/
theorem verdict_fits_iff :
    (verdict env i (seenBids f w i) =
        fitting i.amountIn (stored f (generatePartialFills env i (seenBids f w i))) ∧
      (Announced f env w i ↔ stored f (generatePartialFills env i (seenBids f w i)) ≠ [])) ↔
      Decided f env w i := by
  by_cases hnil : seenBids f w i = []
  · exact iff_of_true (fits_of_no_bids hnil) (.inl hnil)
  · constructor
    · rintro ⟨hfit, hann⟩
      exact decided_of_fits hnil hfit hann.2
    · intro hd
      exact fits_of_decided hnil hd

/-- After `close_auction` the status and the match event fit the inserted fills iff the amount is not
zero and the status is written and the bids decide.  A status that is not written fits only if it
was the right one before. -/
theorem outcome_iff (hi : w.intent i.id = some i) (hfresh : env.FreshFills w) :
    Consistent i w (Call.exec f.acts (closeAuction env i.id) w).2 ↔
      i.amountIn ≠ 0 ∧
        ((Written f env w i ∧ Decided f env w i) ∨
          (¬ Written f env w i ∧
            i.status = fitting i.amountIn (stored f (generatePartialFills env i (seenBids f w i))) ∧
            (Announced f env w i ↔
              stored f (generatePartialFills env i (seenBids f w i)) ≠ []))) := by
  rw [consistent_iff (closed_closeAuction hi hfresh)]
  by_cases hw : Written f env w i
  · rw [if_pos hw, verdict_fits_iff]
    simp only [hw, true_and, not_true_eq_false, false_and, or_false]
  · rw [if_neg hw]
    simp only [hw, false_and, false_or, not_false_eq_true, true_and]

end Outcome

/-- An open intent for 100 USDC with one bid. -/
def auctionDemo (amountOut fee : Int) : World :=
  { World.empty with
    intents := ⟨[Intent.new 1000 "u" "USDC" "ETH" 100 1 0 0], List.nodup_singleton _, List.nodup_singleton _⟩
    bids := [⟨5, 1000, "s", amountOut, fee, 0⟩] }

def auctionEnv : Env := ⟨fun n => 2000 + n, fun _ => 0⟩

def allAnswered : Faults := .none ⟨fun _ => true, fun _ => true, ""⟩

theorem auctionEnv_fresh (amountOut fee : Int) : auctionEnv.FreshFills (auctionDemo amountOut fee) :=
  ⟨fun _ _ h => Nat.add_left_cancel h, fun _ => rfl⟩

/-- One bid of 103 with a fee of 3 fills the intent. -/
theorem outcome_one_bid :
    Consistent (Intent.new 1000 "u" "USDC" "ETH" 100 1 0 0) (auctionDemo 103 3)
      (Call.exec allAnswered.acts (closeAuction auctionEnv 1000) (auctionDemo 103 3)).2 := by
  refine (outcome_iff (i := Intent.new 1000 "u" "USDC" "ETH" 100 1 0 0) (by decide +kernel)
    (auctionEnv_fresh 103 3)).2
    ⟨by decide +kernel, .inl ⟨⟨rfl, rfl⟩, .inr ⟨by decide +kernel, ?_, ?_, ?_, ?_⟩⟩⟩
  · exact ⟨⟨5, 1000, "s", 103, 3, 0⟩, by decide +kernel, by decide +kernel⟩
  · exact fun _ _ _ => rfl
  · intro h
    exact absurd h (by decide +kernel)
  · refine ⟨(announcement allAnswered auctionEnv (auctionDemo 103 3)
      (Intent.new 1000 "u" "USDC" "ETH" 100 1 0 0)).get (by decide +kernel), ?_, rfl⟩
    rw [Option.some_get]

/-- One market, no price to compare with. -/
def bidView : BidView := ⟨some [⟨7, .ETH, .USDC, 1, 10, "ethereum", none⟩], fun _ _ _ => none, fun _ _ _ => none⟩

/-- One accepted bid whose fee eats all it offers: the intent ends partially filled with no fill. -/
theorem outcome_degenerate_bid :
    ¬ ∀ (view : BidView) (f : Faults) (env : Env) (w : World) (i : Intent),
      w.intent i.id = some i → env.FreshFills w →
      (∀ b ∈ w.bidsOf i.id,
        validateBid view i.tokenIn i.tokenOut b.amountOut b.fee i.amountIn = .ok ()) →
      Consistent i w (Call.exec f.acts (closeAuction env i.id) w).2 := by
  intro h
  obtain ⟨ins, evs, hfills, -, -, hpart, -, -⟩ := h bidView allAnswered auctionEnv (auctionDemo 5 5)
    (Intent.new 1000 "u" "USDC" "ETH" 100 1 0 0) (by decide +kernel) (auctionEnv_fresh 5 5)
    (by decide +kernel)
  have hstatus : (Call.exec allAnswered.acts (closeAuction auctionEnv 1000) (auctionDemo 5 5)).2.status
      1000 = some .PartiallyFilled := by decide +kernel
  have hnone : (Call.exec allAnswered.acts (closeAuction auctionEnv 1000)
      (auctionDemo 5 5)).2.fills.rows = [] := by decide +kernel
  have hins : ins = [] := by
    have happ := hfills.symm.trans hnone
    exact (List.append_eq_nil_iff.1 happ).2
  exact (hpart.1 hstatus).1 hins

end IntentX
