import IntentX.Auction
import IntentX.Transactions
import IntentX.Reconcile

/-!
# Locked funds and the intents they are locked for

An intent row names a user, not the account whose funds were locked.  `owner` maps the id of an
intent to the account that created it; a run carries it along.  The *stake* of an intent is its
amount less its settled fills, and nothing once its status is terminal; `World.pledges` sums the
stakes, weighted by a function of the cell they were locked in, as `World.lockedSum` does for the
locked balances.

`LockInv` says that the two sums agree for every weight.  Each operation moves both, and the
lemmas here say by how much; where the two differ, the operation loses or invents locked funds.
`LockReq.Sound` is the condition, on the state before a step, under which they do not differ.
-/

namespace IntentX

open Lib

/-! ## Stakes -/

/-- The weight of the cell an intent locks funds in. -/
def Intent.weigh (owner : Uuid → Uuid) (χ : Cell → Int) (i : Intent) : Int :=
  match parseAsset i.tokenIn with
  | some s => χ (owner i.id, s)
  | none => 0

namespace World

variable (w : World) (owner : Uuid → Uuid)

def stake (i : Intent) : Int :=
  if i.status.terminal then 0 else i.amountIn - w.settledQty i.id

def pledges (χ : Cell → Int) : Int := w.intents.sum fun i => i.weigh owner χ * w.stake i

/-- What the live intents of an account still have locked of an asset. -/
def pledged (a : Uuid) (s : Asset) : Int :=
  w.intents.sum fun i =>
    if owner i.id = a ∧ parseAsset i.tokenIn = some s ∧ i.status.terminal = false then
      i.amountIn - w.settledQty i.id
    else 0

variable {w owner}

theorem pledges_only (a : Uuid) (s : Asset) : w.pledges owner (only (a, s)) = w.pledged owner a s := by
  refine Table.sum_congr fun i _ => ?_
  unfold Intent.weigh stake only
  rcases parseAsset i.tokenIn with _ | s'
  · simp
  · by_cases ha : owner i.id = a <;> by_cases hs : s' = s <;> by_cases ht : i.status.terminal = true <;>
      simp [ha, hs, ht]

theorem weigh_eq {i : Intent} {s : Asset} (hs : parseAsset i.tokenIn = some s) (χ : Cell → Int) :
    i.weigh owner χ = χ (owner i.id, s) := by
  unfold Intent.weigh
  rw [hs]

/-- A write to the row of one intent moves the pledges by the change of its stake. -/
theorem pledges_update {id : Uuid} {i : Intent} (hi : w.intent id = some i) (f : Intent → Intent)
    (hf : ∀ r, (f r).id = r.id ∧ (f r).id = r.id) (htok : (f i).tokenIn = i.tokenIn)
    (χ : Cell → Int) :
    { w with intents := w.intents.update (fun r => r.id = id) f hf }.pledges owner χ =
      w.pledges owner χ + i.weigh owner χ * (w.stake (f i) - w.stake i) := by
  obtain ⟨hmem, rfl⟩ := intent_some_iff.1 hi
  have hw : (f i).weigh owner χ = i.weigh owner χ := by
    unfold Intent.weigh
    rw [htok, (hf i).1]
  show (w.intents.update _ f hf).sum (fun r => r.weigh owner χ * w.stake r) = _
  rw [Table.sum_update_pk hmem, hw]
  unfold pledges
  ring

/-- A new intent that is not terminal and has no settled fills adds its amount. -/
theorem pledges_insert {i : Intent} {t} (ht : w.intents.insert i = some t)
    (hst : i.status.terminal = false) (hq : w.settledQty i.id = 0) (χ : Cell → Int) :
    { w with intents := t }.pledges owner χ = w.pledges owner χ + i.weigh owner χ * i.amountIn := by
  show t.sum (fun r => r.weigh owner χ * w.stake r) = _
  rw [Table.sum_insert ht]
  simp [pledges, stake, hst, hq]

/-- The settled quantity of the fill's intent grows by the fill. -/
theorem settledQty_markFill {id : Uuid} {f : Fill} (hf : w.fill id = some f)
    (hset : f.settled = false) (now : Int) (j : Uuid) :
    (w.markFill id now).settledQty j = w.settledQty j + if f.intentId = j then f.filledQty else 0 := by
  obtain ⟨hmem, rfl⟩ : f ∈ w.fills.rows ∧ f.id = id := Table.find_pk_iff.1 hf
  unfold settledQty markFill
  rw [Table.sum_update_pk hmem]
  simp [hset]

theorem stake_markFill {id : Uuid} {f : Fill} (hf : w.fill id = some f) (hset : f.settled = false)
    (now : Int) (i : Intent) :
    (w.markFill id now).stake i =
      w.stake i - if i.id = f.intentId then (if i.status.terminal then 0 else f.filledQty) else 0 := by
  unfold stake
  rw [settledQty_markFill hf hset]
  by_cases ht : i.status.terminal = true <;> by_cases hid : i.id = f.intentId <;>
    simp [ht, hid, eq_comm]
  · ring

/-- A settled fill takes its quantity out of the stake of its intent, if that is live. -/
theorem pledges_markFill {id : Uuid} {f : Fill} (hf : w.fill id = some f) (hset : f.settled = false)
    (now : Int) (χ : Cell → Int) :
    (w.markFill id now).pledges owner χ = w.pledges owner χ +
      w.intents.sum fun i =>
        if i.id = f.intentId then
          -(i.weigh owner χ * (if i.status.terminal then 0 else f.filledQty))
        else 0 := by
  have hrow : ∀ i : Intent, i.weigh owner χ * (w.markFill id now).stake i =
      i.weigh owner χ * w.stake i +
        if i.id = f.intentId then
          -(i.weigh owner χ * (if i.status.terminal then 0 else f.filledQty))
        else 0 := by
    intro i
    rw [stake_markFill hf hset]
    split <;> ring
  unfold pledges Table.sum
  rw [← sum_map_add_sub]
  simp only [hrow]
  rfl

end World

/-! ## The invariant -/

/-- The locked balances are the stakes of the live intents, and every intent with an amount has
the balance row its funds are locked in. -/
structure LockInv (owner : Uuid → Uuid) (w : World) : Prop where
  balanced : ∀ χ, w.lockedSum χ = w.pledges owner χ
  backed : ∀ i ∈ w.intents.rows, ∀ s, parseAsset i.tokenIn = some s →
    (w.balance (owner i.id) s).isSome ∨ i.amountIn = 0

namespace LockInv

variable {owner owner' : Uuid → Uuid} {w w₁ w' : World} {id : Uuid} {i : Intent} {s : Asset}

theorem congr (h : LockInv owner w) (hb : w'.balances = w.balances) (hi : w'.intents = w.intents)
    (hf : ∀ j, w'.settledQty j = w.settledQty j) : LockInv owner w' where
  balanced χ := by
    have hl : w'.lockedSum χ = w.lockedSum χ := by
      unfold World.lockedSum
      rw [hb]
    rw [hl, h.balanced]
    unfold World.pledges World.stake
    simp only [hi, hf]
  backed := by
    unfold World.balance
    rw [hb, hi]
    exact h.backed

theorem congr_owner (h : LockInv owner w) (ho : ∀ i ∈ w.intents.rows, owner' i.id = owner i.id) :
    LockInv owner' w where
  balanced χ := by
    rw [h.balanced]
    refine Table.sum_congr fun i hi => ?_
    unfold Intent.weigh
    rw [ho i hi]
  backed i hi s hs := by
    rw [ho i hi]
    exact h.backed i hi s hs

/-- An amount that is moved for an intent is moved in full. -/
theorem ifRow (h : LockInv owner w) (hi : w.intent id = some i) (hs : parseAsset i.tokenIn = some s) :
    w.ifRow (owner id) s i.amountIn = i.amountIn := by
  obtain ⟨hmem, rfl⟩ := World.intent_some_iff.1 hi
  unfold World.ifRow
  rcases h.backed i hmem s hs with hrow | hz
  · rw [if_pos hrow]
  · rw [hz]
    split <;> rfl

/-- The locked funds of the owner and the row of the intent move together. -/
theorem write {k : Cell} {da d : Int} (h : LockInv owner w) (hm : Moves k da d w w₁)
    (hi : w.intent id = some i) (f : Intent → Intent)
    (hf : ∀ r, (f r).id = r.id ∧ (f r).id = r.id) (htok : ∀ r, (f r).tokenIn = r.tokenIn)
    (hd : ∀ χ, χ k * d = i.weigh owner χ * (w.stake (f i) - w.stake i))
    (hback : ∀ s, parseAsset i.tokenIn = some s →
      (w.balance (owner i.id) s).isSome ∨ (f i).amountIn = 0) :
    LockInv owner { w₁ with intents := w₁.intents.update (fun r => r.id = id) f hf } := by
  obtain ⟨b, rfl⟩ : ∃ b, w₁ = { w with balances := b } := ⟨_, hm.frame⟩
  constructor
  · intro χ
    change World.lockedSum { w with balances := b } χ =
      World.pledges { w with intents := w.intents.update (fun r => r.id = id) f hf } owner χ
    rw [hm.locked, h.balanced, World.pledges_update hi f hf (htok i), hd]
  · intro r hr s hs
    obtain ⟨r₀, hr₀, rfl⟩ := List.mem_map.1 hr
    by_cases hid : r₀.id = id
    · have hri : r₀ = i := Option.some.inj ((World.intent_some_iff.2 ⟨hr₀, hid⟩).symm.trans hi)
      subst hri
      simp only [hid, decide_true, if_true] at hs ⊢
      rw [htok] at hs
      rw [(hf r₀).1]
      exact (hback s hs).imp_left (hm.rows _ _)
    · simp only [hid, decide_false, Bool.false_eq_true, if_false] at hs ⊢
      exact (h.backed r₀ hr₀ s hs).imp_left (hm.rows _ _)

/-- A status write on its own keeps the invariant when it changes no stake. -/
theorem setStatus (h : LockInv owner w) (hi : w.intent id = some i) {st : IntentStatus}
    (hst : w.stake { i with status := st } = w.stake i) : LockInv owner (w.setStatus id st) := by
  have hmem := (World.intent_some_iff.1 hi).1
  refine h.write (Moves.refl (0, .USDC) w) hi _ _ (fun _ => rfl) ?_ (h.backed i hmem)
  intro χ
  rw [hst]
  ring

/-! ## One lemma for each operation -/

theorem silent (owner : Uuid → Uuid) : Silent (LockInv owner) :=
  ⟨fun _ _ h => ⟨h.balanced, h.backed⟩, fun _ _ h => ⟨h.balanced, h.backed⟩⟩

theorem create {ar : Arith} {a : Uuid} {x now : Int} (h : LockInv owner w)
    (hs : parseAsset i.tokenIn = some s) (hamt : i.amountIn = x) (ho : owner i.id = a)
    (hst : i.status.terminal = false) (hq : w.settledQty i.id = 0)
    (hrow : (w.balance a s).isSome ∨ x = 0)
    (hx : Call.exec (execStmt ar) (createBody a s x now i) w = (.ok (), w')) :
    LockInv owner w' := by
  obtain ⟨-, w₁, t, hm, ht, rfl⟩ := createBody_ok hx
  have hifrow : w.ifRow a s x = x := by
    unfold World.ifRow
    rcases hrow with hr | hz
    · rw [if_pos hr]
    · rw [hz]
      split <;> rfl
  rw [hifrow] at hm
  obtain ⟨b, rfl⟩ : ∃ b, w₁ = { w with balances := b } := ⟨_, hm.frame⟩
  constructor
  · intro χ
    change World.lockedSum { w with balances := b } χ = World.pledges { w with intents := t } owner χ
    rw [hm.locked, h.balanced, World.pledges_insert ht hst hq, World.weigh_eq hs, ho, hamt]
  · intro r hr s' hs'
    rcases (Table.mem_insert ht).1 hr with hr | rfl
    · exact (h.backed r hr s' hs').imp_left (hm.rows _ _)
    · rw [hs] at hs'
      cases hs'
      rw [ho, hamt]
      exact hrow.imp_left (hm.rows _ _)

/-- Releasing an intent's amount is right when all of it is still locked for it. -/
theorem release {ar : Arith} {now : Int} {st : IntentStatus} (h : LockInv owner w)
    (hi : w.intent id = some i) (hs : parseAsset i.tokenIn = some s) (hst : st.terminal = true)
    (hheld : w.stake i = i.amountIn)
    (hx : Call.exec (execStmt ar) (releaseBody id (owner id) s i.amountIn now st) w = (.ok (), w')) :
    LockInv owner w' := by
  obtain ⟨w₁, hm, rfl⟩ := releaseBody_ok hx
  obtain ⟨hmem, hid⟩ := World.intent_some_iff.1 hi
  rw [h.ifRow hi hs] at hm
  refine h.write hm hi _ _ (fun _ => rfl) ?_ (h.backed i hmem)
  intro χ
  have hz : w.stake { i with status := st } = 0 := if_pos hst
  rw [hz, hheld, World.weigh_eq hs, hid]
  ring

/-- An amendment moves the whole difference: without a row the amount was 0 and nothing is
available, so nothing can have been added. -/
theorem adjustment {x : Int} (h : LockInv owner w) (hi : w.intent id = some i)
    (hs : parseAsset i.tokenIn = some s)
    (hrange : -2 ^ 63 < x - i.amountIn ∧ x - i.amountIn < 2 ^ 63)
    (hrow : (w.balance (owner id) s).isSome ∨ i.amountIn ≤ x)
    (hcov : 0 < x - i.amountIn → x - i.amountIn ≤ w.avail (owner id, s)) :
    w.adjustment .release (owner id) s (x - i.amountIn) = x - i.amountIn ∧
      ((w.balance (owner id) s).isSome ∨ x = 0) := by
  obtain ⟨hmem, hid⟩ := World.intent_some_iff.1 hi
  have hneg : Arith.release.rust (-(x - i.amountIn)) = -(x - i.amountIn) :=
    Arith.release_rust (by omega)
  unfold World.adjustment World.ifRow
  rw [hneg]
  by_cases hr : (w.balance (owner id) s).isSome = true
  · simp only [hr, if_true]
    refine ⟨?_, .inl trivial⟩
    split
    · rfl
    · split <;> omega
  · have hnone : w.balance (owner id) s = none := by simpa using hr
    have hav : w.avail (owner id, s) = 0 := World.avail_of_none (World.balance_none_iff.1 hnone)
    have hz : i.amountIn = 0 := by
      have hb := h.backed i hmem s hs
      rw [hid] at hb
      exact hb.resolve_left hr
    have hle := hrow.resolve_left hr
    have hnew : x = 0 := by omega
    simp [hnew, hz]

theorem amend {now : Int} {y z : Option UInt64} {p : Option Int} (h : LockInv owner w)
    (hcond : ∀ i s, w.intent id = some i → i.status.amendable = true →
      parseAsset i.tokenIn = some s →
      (-2 ^ 63 < i.newAmount y - i.amountIn ∧ i.newAmount y - i.amountIn < 2 ^ 63) ∧
        ((w.balance (owner id) s).isSome ∨ i.amountIn ≤ i.newAmount y))
    (hx : Call.exec (execStmt .release) (amendBody .release id (owner id) y z p now) w = (.ok (), w')) :
    LockInv owner w' := by
  obtain ⟨i, s, w₁, log, minOut, price, hi, hst, hs, ⟨hcov, hm⟩, rfl⟩ := amendBody_ok hx
  obtain ⟨hrange, hrow⟩ := hcond i s hi hst hs
  obtain ⟨hmem, hid⟩ := World.intent_some_iff.1 hi
  have hdiff : Arith.release.rust (i.newAmount y - i.amountIn) = i.newAmount y - i.amountIn :=
    Arith.release_rust (by omega)
  rw [hdiff] at hcov hm
  have hadj := h.adjustment hi hs hrange hrow hcov
  rw [hadj.1] at hm
  have hterm := not_terminal_of_amendable hst
  have hinv : LockInv owner (w₁.amendRow id (i.newAmount y) minOut price) := by
    refine h.write hm hi _ _ (fun _ => rfl) ?_ ?_
    · intro χ
      have hnew : w.stake (i.amended (i.newAmount y) minOut price) =
          i.newAmount y - w.settledQty i.id := rfl
      have hold : w.stake i = i.amountIn - w.settledQty i.id := if_neg (by simp [hterm])
      rw [World.weigh_eq hs, hid, hnew, hold, hid]
      ring
    · intro s' hs'
      rw [hs] at hs'
      cases hs'
      rw [hid]
      exact hadj.2
  exact hinv.congr rfl rfl (fun _ => rfl)

/-- The expiry of `i`, by a scan's copy `j` of it, is right when the copy still says what is
locked for the intent and where. -/
theorem expire {ar : Arith} {now : Int} {j : Intent} {b : Bool} (h : LockInv owner w)
    (hcond : ∀ i, w.intent j.id = some i → i.status.amendable = true →
      (j.amountIn = 0 ∧ w.stake i = 0) ∨
      ∃ s r, parseAsset i.tokenIn = some s ∧ w.expiryCell j = some (owner j.id, s) ∧
        w.balance (owner j.id) s = some r ∧ j.amountIn = w.stake i ∧ j.amountIn ≤ r.lockedBalance)
    (hx : Call.exec (execStmt ar) (expireBody j now) w = (.ok b, w')) : LockInv owner w' := by
  rcases expireBody_ok hx with ⟨-, rfl⟩ | ⟨i, w₁, hi, hst, hmove, hstay, rfl⟩
  · exact h
  obtain ⟨hmem, hid⟩ := World.intent_some_iff.1 hi
  have hz : w.stake { i with status := .Expired } = 0 := if_pos rfl
  rcases hcond i hi hst with ⟨hzero, hstake⟩ | ⟨s, r, hs, hcell, hrow, hamt, hcov⟩
  · have hrel : w.expiryRelease j = 0 := by
      unfold World.expiryRelease World.ifLocked
      rw [hzero]
      split
      · split <;> rfl
      · rfl
    rcases hc : w.expiryCell j with _ | k
    · rw [hstay hc]
      exact h.setStatus hi (hz.trans hstake.symm)
    · have hm := hmove k hc
      rw [hrel] at hm
      refine h.write hm hi _ _ (fun _ => rfl) ?_ (h.backed i hmem)
      intro χ
      rw [hz, hstake]
      ring
  · have hm := hmove _ hcell
    have hrel : w.expiryRelease j = w.stake i := by
      unfold World.expiryRelease World.ifLocked
      rw [hcell]
      simp only [hrow, Option.any_some, decide_eq_true hcov, if_true]
      exact hamt
    rw [hrel] at hm
    refine h.write hm hi _ _ (fun _ => rfl) ?_ (h.backed i hmem)
    intro χ
    rw [hz, World.weigh_eq hs, hid]
    ring

end LockInv

/-! ## Closing an auction -/

section Auction

variable {ar : Arith} {bus : Bus} {env : Env} {owner : Uuid → Uuid} {w w₁ : World} {i : Intent}

/-- Balances, intents and settled sums are the same. -/
structure SameStakes (w w' : World) : Prop where
  balances : w'.balances = w.balances
  intents : w'.intents = w.intents
  settledQty : ∀ j, w'.settledQty j = w.settledQty j

/-- Inserting an unsettled fill changes none of them, nor does failing to. -/
theorem SameStakes.insertFill {f : Fill} (h : SameStakes w w₁) (hf : f.settled = false) :
    SameStakes w (execAct ar bus (.sql (.insertFill f)) w₁).2 := by
  simp only [execAct, execStmt]
  rcases ht : w₁.fills.insert f with _ | t
  · exact h
  · refine ⟨h.balances, h.intents, fun j => Eq.trans ?_ (h.settledQty j)⟩
    show t.sum _ = w₁.fills.sum _
    rw [Table.sum_insert ht]
    simp [hf]

theorem insertFills_ends {E : Type} {fills : List Fill} (h : SameStakes w w₁)
    (hf : ∀ f ∈ fills, f.settled = false) :
    Call.Ends (execAct ar bus) (SameStakes w) (insertFills fills : Task E Unit) w₁ := by
  induction fills generalizing w₁ with
  | nil => exact Call.ends_pure h
  | cons f fs ih =>
    refine Call.ends_bind (Call.ends_attempt (h.insertFill (hf f List.mem_cons_self))) ?_
    intro _ w₂ _ hw₂
    exact ih hw₂ fun g hg => hf g (List.mem_cons_of_mem f hg)

theorem exec_tryStatus {E : Type} (id : Uuid) (st : IntentStatus) :
    Call.exec (execAct ar bus) (tryStatus id st : Task E Unit) w = (.ok (), w.setStatus id st) := rfl

/-- A status write changes no stake if it does not change whether the intent is live, or if the
intent has nothing left to lose. -/
theorem World.stake_status {st : IntentStatus}
    (h : st.terminal = i.status.terminal ∨ i.amountIn = w.settledQty i.id) :
    w.stake { i with status := st } = w.stake i := by
  unfold World.stake
  rcases h with he | hz
  · simp only [he]
  · simp only [hz, sub_self]
    split <;> split <;> rfl

/-- Closing an auction writes a live status exactly when there are bids. -/
theorem closeWith_ends {bids : List SolverBid} (h : LockInv owner w) (hi : w.intent i.id = some i)
    (hcond : i.status.terminal = bids.isEmpty ∨ i.amountIn = w.settledQty i.id) :
    Call.Ends (execAct ar bus) (LockInv owner) (closeWith env i bids) w := by
  unfold closeWith
  split
  · next hempty =>
    refine Call.ends_bind_of_exec (exec_tryStatus _ _) (Call.ends_op ?_)
    refine (LockInv.silent owner).publish (h.setStatus hi (World.stake_status ?_)) _
    rw [hempty] at hcond
    exact hcond.imp_left Eq.symm
  · next hne =>
    have hempty : bids.isEmpty = false := by simpa using hne
    have hfills : ∀ f ∈ generatePartialFills env i bids, f.settled = false :=
      fun f hf => fillLoop_unsettled hf
    have hsame : SameStakes w w := ⟨rfl, rfl, fun _ => rfl⟩
    have hends : Call.Ends (execAct ar bus) (SameStakes w)
        (insertFills (generatePartialFills env i bids) : Task String Unit) w :=
      insertFills_ends hsame hfills
    refine Call.ends_bind (h.congr hends.balances hends.intents hends.settledQty) ?_
    intro _ w₁ hr hw₁
    have hs₁ : SameStakes w w₁ := hends.holds hr
    refine Call.ends_bind_of_exec (exec_tryStatus _ _) ?_
    have hi₁ : w₁.intent i.id = some i := by
      unfold World.intent at hi ⊢
      rwa [hs₁.intents]
    have hstake : ∀ st : IntentStatus, st.terminal = false →
        w₁.stake { i with status := st } = w₁.stake i := by
      intro st hst
      apply World.stake_status
      rw [hs₁.settledQty, hst, ← hempty]
      exact hcond.imp_left Eq.symm
    have hw₂ : LockInv owner (w₁.setStatus i.id
        (if i.amountIn ≤ totalFilled (generatePartialFills env i bids) then .Matched
          else .PartiallyFilled)) := by
      refine hw₁.setStatus hi₁ (hstake _ ?_)
      split <;> rfl
    split
    · exact Call.ends_op ((LockInv.silent owner).publish hw₂ _)
    · exact Call.ends_pure hw₂

theorem closeAuction_ends {id : Uuid} (h : LockInv owner w)
    (hcond : ∀ i, w.intent id = some i →
      i.status.terminal = (w.qualifying i).isEmpty ∨ i.amountIn = w.settledQty i.id) :
    Call.Ends (execAct ar bus) (LockInv owner) (closeAuction env id) w := by
  refine Call.ends_bind_of_exec (exec_getIntent id) ?_
  rcases hi : w.intent id with _ | i
  · exact Call.ends_pure h
  · have hid := (World.intent_some_iff.1 hi).2
    have hbids : Call.exec (execAct ar bus) (getBids id : Task String _) w = (.ok (w.bidsOf id), w) :=
      rfl
    refine Call.ends_bind_of_exec hbids (closeWith_ends h ?_ ?_)
    · rwa [hid]
    · have hc := hcond i hi
      unfold World.qualifying at hc
      rwa [hid] at hc ⊢

end Auction

/-! ## Settling a fill -/

section Settle

variable {ar : Arith} {owner : Uuid → Uuid} {w w' : World} {a : Uuid} {s : Asset}

theorem CreditFee.rows {k : Cell} {x : Int} (h : CreditFee ar k x w w')
    (hrow : (w.balance a s).isSome) : (w'.balance a s).isSome := by
  unfold CreditFee at h
  split at h
  · exact Moves.rows h a s hrow
  · rwa [h]

theorem FillMoves.rows {p : SettleFillArgs} {f : Fill} (h : FillMoves ar p f w w')
    (hrow : (w.balance a s).isSome) : (w'.balance a s).isSome := by
  obtain ⟨w₁, w₂, w₃, w₄, w₅, h₁, h₂, h₃, h₄, h₅, h₆⟩ := h
  have r₁ := h₁.2.rows a s hrow
  have r₂ := Moves.rows h₂ a s r₁
  have r₃ := Moves.rows h₃ a s r₂
  have r₄ := h₄.2.rows a s r₃
  exact h₆.rows (h₅.rows r₄)

/-- A settlement takes the fill out of the buyer's locked funds and out of the stake of the fill's
intent, which has to be live and to have locked its funds there. -/
theorem LockInv.settleFill {env : Env} {p : SettleFillArgs} (h : LockInv owner w)
    (hcond : ∀ f, w.fill p.fillId = some f → f.filledQty = 0 ∨
      ∃ i, w.intent f.intentId = some i ∧ i.status.terminal = false ∧
        owner i.id = p.buyerAccountId ∧ parseAsset i.tokenIn = some p.assetIn)
    (hx : Call.exec (execStmt ar) (settleFill ar env p) w = (.ok (), w')) : LockInv owner w' := by
  obtain ⟨f, w₁, w₂, hf, hns, hmv, hbk, rfl⟩ := settleFill_ok hx
  obtain ⟨b, rfl⟩ : ∃ b, w₁ = { w with balances := b } := ⟨_, hmv.frame⟩
  obtain ⟨l, rfl⟩ : ∃ l, w₂ = { w with balances := b, ledgerEntries := l } := ⟨_, hbk.frame⟩
  constructor
  · intro χ
    change World.lockedSum { w with balances := b } χ =
      (w.markFill p.fillId (env.now 0)).pledges owner χ
    rw [hmv.lockedSum, h.balanced, World.pledges_markFill hf hns]
    rcases hcond f hf with hz | ⟨i, hi, hlive, ho, hs⟩
    · simp [hz, Table.sum]
    · obtain ⟨hmem, hid⟩ := World.intent_some_iff.1 hi
      rw [← hid, Table.sum_ite_pk hmem, World.weigh_eq hs, ho, hlive]
      simp only [Bool.false_eq_true, if_false]
      ring
  · intro i hi s hs
    exact (h.backed i hi s hs).imp_left hmv.rows

end Settle

/-! ## Runs -/

/-- The operations that change a lock or the status of an intent. -/
inductive LockReq where
  | create (view : RiskView) (userId : String) (accountId : Uuid) (tokenIn tokenOut : String)
      (amountIn minAmountOut : UInt64) (deadline : Int)
  | amend (intentId accountId : Uuid) (newAmountIn newMinAmountOut : Option UInt64)
      (newLimitPrice : Option Int)
  | cancel (intentId accountId : Uuid)
  | fail (intentId accountId : Uuid)
  | closeAuction (intentId : Uuid)
  | expire (intent : Intent)
  | settleFill (p : SettleFillArgs)

/-- The database, and the accounts that locked the funds of its intents. -/
structure Locks where
  world : World
  owner : Uuid → Uuid

/-- The database after an operation in the release build, whatever it returned. -/
def LockReq.after (env : Env) (bus : Bus) (w : World) : LockReq → World
  | .create view u a x y n m d => (Call.exec (execAct .release bus) (createIntent env view u a x y n m d) w).2
  | .amend id a n m p => (Call.exec (execAct .release bus) (amendIntent env id a n m p) w).2
  | .cancel id a => (Call.exec (execAct .release bus) (cancelIntent env id a) w).2
  | .fail id a => (Call.exec (execAct .release bus) (failIntent env id a) w).2
  | .closeAuction id => (Call.exec (execAct .release bus) (IntentX.closeAuction env id) w).2
  | .expire i => (Call.exec (execAct .release bus) (expireIntent env i) w).2
  | .settleFill p => (settleFillTx .release env p w).2

/-- A new intent belongs to the account it was created with. -/
def LockReq.owners (env : Env) (l : Locks) : LockReq → Uuid → Uuid
  | .create _ _ a _ _ _ _ _ => fun id =>
    if id = env.uuid 0 ∧ l.world.intent id = none then a else l.owner id
  | _ => l.owner

def LockReq.next (env : Env) (bus : Bus) (l : Locks) (req : LockReq) : Locks :=
  ⟨req.after env bus l.world, req.owners env l⟩

/-- An intent is amended, cancelled and failed with the account that locked its funds. -/
def LockReq.ByOwner (l : Locks) : LockReq → Prop
  | .amend id a _ _ _ | .cancel id a | .fail id a => a = l.owner id
  | _ => True

/-- Where an operation changes the locks and the stakes alike. -/
def LockReq.Sound (env : Env) (l : Locks) : LockReq → Prop
  -- there is a row to lock in, and the fresh id has no settled fills
  | .create _ _ a x _ n _ _ =>
    (∀ s, parseAsset x = some s → (l.world.balance a s).isSome ∨ asI64 n = 0) ∧
      l.world.settledQty (env.uuid 0) = 0
  -- the difference is no overflow, and there is a row to release in
  | .amend id _ n _ _ => ∀ i s, l.world.intent id = some i → i.status.amendable = true →
      parseAsset i.tokenIn = some s →
      (-2 ^ 63 < i.newAmount n - i.amountIn ∧ i.newAmount n - i.amountIn < 2 ^ 63) ∧
        ((l.world.balance (l.owner id) s).isSome ∨ i.amountIn ≤ i.newAmount n)
  -- all of the amount is still locked: the intent is live and nothing of it is settled
  | .cancel id _ | .fail id _ => ∀ i, l.world.intent id = some i → l.world.stake i = i.amountIn
  -- the intent is live and there are bids, or neither; or nothing is at stake
  | .closeAuction id => ∀ i, l.world.intent id = some i →
      i.status.terminal = (l.world.qualifying i).isEmpty ∨ i.amountIn = l.world.settledQty i.id
  -- the scan's copy is up to date, its user has the account, and the funds are there
  | .expire j => ∀ i, l.world.intent j.id = some i → i.status.amendable = true →
      (j.amountIn = 0 ∧ l.world.stake i = 0) ∨
      ∃ s r, parseAsset i.tokenIn = some s ∧ l.world.expiryCell j = some (l.owner j.id, s) ∧
        l.world.balance (l.owner j.id) s = some r ∧ j.amountIn = l.world.stake i ∧
        j.amountIn ≤ r.lockedBalance
  -- the fill's intent is live, and the buyer is the account that locked its funds
  | .settleFill p => ∀ f, l.world.fill p.fillId = some f → f.filledQty = 0 ∨
      ∃ i, l.world.intent f.intentId = some i ∧ i.status.terminal = false ∧
        l.owner i.id = p.buyerAccountId ∧ parseAsset i.tokenIn = some p.assetIn

/-- One step keeps the invariant. -/
theorem LockReq.lockInv {env : Env} {bus : Bus} {l : Locks} {req : LockReq}
    (h : LockInv l.owner l.world) (hown : req.ByOwner l) (hs : req.Sound env l) :
    LockInv (req.next env bus l).owner (req.next env bus l).world := by
  have hsil := LockInv.silent l.owner
  cases req with
  | create view u a x y n m d =>
    -- no stored intent has a new owner
    have hold : LockInv ((LockReq.create view u a x y n m d).owners env l) l.world := by
      refine h.congr_owner fun i hi => if_neg fun hc => ?_
      exact Table.find_pk_none.1 hc.2 i hi rfl
    refine createIntent_ends (LockInv.silent _) hold fun _ s w' _ hx hbody => ?_
    have hfree : l.world.intent (env.uuid 0) = none := by
      obtain ⟨-, w₁, t, -, ht, -⟩ := createBody_ok hbody
      have hsome := Table.insert_isSome_iff.1 (Option.isSome_of_eq_some ht)
      exact Table.find_pk_none.2 fun i hi => (hsome i hi).1
    refine LockInv.create (i := Intent.new (env.uuid 0) u x y n m d (env.now 0)) (x := asI64 n) hold
      hx (Intent.new_amountIn ..) ?_ rfl hs.2 (hs.1 s hx) hbody
    exact if_pos ⟨rfl, hfree⟩
  | amend id a n m p =>
    change a = l.owner id at hown
    subst hown
    exact amendIntent_ends hsil h fun w' hx => h.amend hs hx
  | cancel id a =>
    change a = l.owner id at hown
    subst hown
    exact closeIntent_ends hsil h fun i s w' hi hx hbody => h.release hi hx rfl (hs i hi) hbody
  | fail id a =>
    change a = l.owner id at hown
    subst hown
    exact closeIntent_ends hsil h fun i s w' hi hx hbody => h.release hi hx rfl (hs i hi) hbody
  | closeAuction id => exact closeAuction_ends h hs
  | expire j => exact expireIntent_ends hsil h fun b w' hx => h.expire hs hx
  | settleFill p =>
    show LockInv l.owner (settleFillTx .release env p l.world).2
    unfold settleFillTx
    rcases Call.transaction_cases (h := execStmt .release) (IntentX.settleFill .release env p) l.world with
      ⟨_, w', hx, ht⟩ | ⟨e, ht⟩
    · rw [ht]
      exact h.settleFill hs hx
    · rw [ht]
      exact h

/-- A step by the owner that meets the condition `C`. -/
def LockStep (C : Env → Locks → LockReq → Prop) (l l' : Locks) : Prop :=
  ∃ env bus req, req.ByOwner l ∧ C env l req ∧ l' = req.next env bus l

theorem lockInv_of_empty {w : World} (hbal : ∀ b ∈ w.balances.rows, b.lockedBalance = 0)
    (hint : w.intents.rows = []) (owner : Uuid → Uuid) : LockInv owner w where
  balanced χ := by
    have hp : w.pledges owner χ = 0 := by simp [World.pledges, Table.sum, hint]
    rw [hp]
    apply List.sum_eq_zero
    intro x hx
    obtain ⟨b, hb, rfl⟩ := List.mem_map.1 hx
    rw [hbal b hb, mul_zero]
  backed i hi := by
    rw [hint] at hi
    cases hi

/-- **Lock accounting.**  From a database with nothing locked and no intents, in every state that
sound steps reach, what is locked in a cell is what the live intents of the account still have at
stake there. -/
theorem lock_run_balanced (w₀ : World) (hbal : ∀ b ∈ w₀.balances.rows, b.lockedBalance = 0)
    (hint : w₀.intents.rows = []) (owner₀ : Uuid → Uuid) (l : Locks)
    (run : Relation.ReflTransGen (LockStep LockReq.Sound) ⟨w₀, owner₀⟩ l) (a : Uuid) (s : Asset) :
    l.world.locked (a, s) = l.world.pledged l.owner a s := by
  have hinv : LockInv l.owner l.world := by
    induction run with
    | refl => exact lockInv_of_empty hbal hint owner₀
    | tail _ hstep ih =>
      obtain ⟨env, bus, req, hown, hs, rfl⟩ := hstep
      exact LockReq.lockInv ih hown hs
  rw [← World.pledges_only]
  exact hinv.balanced (only (a, s))

/-- An account with 500 USDC. -/
def lockDemo : World :=
  { World.empty with
    users := [⟨10, "alice"⟩]
    accounts := [⟨2, 10⟩]
    balances := ⟨[⟨100, 2, .USDC, 500, 0, 0⟩], by decide, by decide⟩ }

/-- Redis takes everything. -/
def upBus : Bus := ⟨fun _ => true, fun _ => true, ""⟩

/-- The risk engine finds an ETH/USDC market and the 500 USDC. -/
def demoView : RiskView :=
  ⟨some [⟨50, .ETH, .USDC, 0, 1, "ethereum", none⟩], some lockDemo.balances.rows, none, none⟩

/-- 100 USDC are locked for intent 1000. -/
def demoCreate : LockReq := .create demoView "alice" 2 "USDC" "ETH" 100 0 0

def createdLocks : Locks := demoCreate.next demoEnv upBus ⟨lockDemo, fun _ => 0⟩

theorem demoCreate_sound : demoCreate.Sound demoEnv ⟨lockDemo, fun _ => 0⟩ := by
  refine ⟨fun s hs => .inl ?_, by decide +kernel⟩
  have hu : parseAsset "USDC" = some .USDC := by decide +kernel
  cases hu.symm.trans hs
  decide +kernel

def cancelledLocks : Locks := (LockReq.cancel 1000 2).next demoEnv upBus createdLocks

theorem cancel_created_sound : (LockReq.cancel 1000 2).Sound demoEnv createdLocks := by
  have hall : (createdLocks.world.intent 1000).all
      (fun i => decide (createdLocks.world.stake i = i.amountIn)) = true := by decide +kernel
  exact fun i hi => of_decide_eq_true ((Option.all_eq_true _ _).1 hall i hi)

theorem created_then_cancelled_balanced :
    createdLocks.world.locked (2, .USDC) = 100 ∧ cancelledLocks.world.locked (2, .USDC) = 0 ∧
    cancelledLocks.world.locked (2, .USDC) =
      cancelledLocks.world.pledged cancelledLocks.owner 2 .USDC := by
  have hfirst : LockStep LockReq.Sound ⟨lockDemo, fun _ => 0⟩ createdLocks :=
    ⟨demoEnv, upBus, demoCreate, trivial, demoCreate_sound, rfl⟩
  have hown : (2 : Uuid) = createdLocks.owner 1000 := by decide +kernel
  have hsecond : LockStep LockReq.Sound createdLocks cancelledLocks :=
    ⟨demoEnv, upBus, .cancel 1000 2, hown, cancel_created_sound, rfl⟩
  refine ⟨by decide +kernel, by decide +kernel, ?_⟩
  exact lock_run_balanced lockDemo (by decide) rfl (fun _ => 0) cancelledLocks
    (.tail (.single hfirst) hsecond) 2 .USDC

/-- An auction that closes without bids fails the intent and leaves its 100 USDC locked. -/
theorem closed_without_bids_unbalanced :
    ¬ ∀ (w₀ : World) (owner₀ : Uuid → Uuid) (l : Locks),
      (∀ b ∈ w₀.balances.rows, b.lockedBalance = 0) → w₀.intents.rows = [] →
      Relation.ReflTransGen (LockStep fun _ _ _ => True) ⟨w₀, owner₀⟩ l →
      ∀ a s, l.world.locked (a, s) = l.world.pledged l.owner a s := by
  intro h
  have hrun := h lockDemo (fun _ => 0) ((LockReq.closeAuction 1000).next demoEnv' upBus createdLocks)
    (by decide) rfl (.tail (.single ⟨demoEnv, upBus, demoCreate, trivial, trivial, rfl⟩)
      ⟨demoEnv', upBus, .closeAuction 1000, trivial, trivial, rfl⟩) 2 .USDC
  revert hrun
  decide +kernel

end IntentX
