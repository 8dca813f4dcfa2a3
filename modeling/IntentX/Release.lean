import IntentX.Overfill

/-!
# Releasing the funds of an intent

The funds locked for an intent leave the locked balance in four ways: `cancel_intent`,
`fail_intent` and `expire_intent` give them back, `settle_fill` consumes them.  Cancelling and
failing look neither at the status nor at whose account they are given; settling does not look at
the intent at all.

The calls run side by side, act by act, a transaction being one act.  What an act moves is measured
on the balances: `movedOut` is by how much the acts on behalf of an intent have lowered the locked
balances.  In a run in which funds are only released while the intent is live and nothing of it is
settled, to its owner, and only settled while the intent is live and not overfilled, no more than the
amount of the intent moves, and all that comes back goes to the owner (`released_once`).
-/

namespace IntentX

open Lib

/-! ## The calls -/

inductive FundAct where
  | act (o : Act)
  | settleFill (env : Env) (p : SettleFillArgs)

abbrev FundAct.Reply : FundAct → Type
  | .act o => o.Reply
  | .settleFill .. => Except SettlementError Unit

inductive FundTask where
  | cancelIntent (env : Env) (intentId accountId : Uuid)
  | failIntent (env : Env) (intentId accountId : Uuid)
  | expireIntent (env : Env) (intent : Intent)
  | settleFill (env : Env) (p : SettleFillArgs)

def FundTask.task : FundTask → Prog FundAct FundAct.Reply ActError Unit
  | .cancelIntent env id a =>
    Prog.embed FundAct.act (fun _ r => r) (inPool (IntentX.cancelIntent env id a))
  | .failIntent env id a =>
    Prog.embed FundAct.act (fun _ r => r) (inPool (IntentX.failIntent env id a))
  | .expireIntent env i =>
    Prog.embed FundAct.act (fun _ r => r) (inPool (IntentX.expireIntent env i))
  | .settleFill env p => Prog.ask (FundAct.settleFill env p) >>= fun _ => .ret ()

/-- What an act leaves behind. -/
def FundAct.after (ar : Arith) (bus : Bus) : FundAct → World → World
  | .act o, w => (execAct ar bus o w).2
  | .settleFill env p, w => (settleFillTx ar env p w).2

/-- What happens at an act and until the next one: how Redis answers, and what the rest of the
system does.  It leaves the amount of the intent and what is settled of it alone, and does not
reopen it. -/
structure Elsewhere (id : Uuid) where
  bus : Bus
  change : World → World
  amount : ∀ w, (change w).amount id = w.amount id
  settledQty : ∀ w, (change w).settledQty id = w.settledQty id
  closed : ∀ w, (change w).live id = true → w.live id = true

def execFund (ar : Arith) (id : Uuid) (n : Elsewhere id) :
    (o : FundAct) → World → Except ActError o.Reply × World
  | .act o, w => ((execAct ar n.bus o w).1, n.change (execAct ar n.bus o w).2)
  | .settleFill env p, w => (.ok (settleFillTx ar env p w).1, n.change (settleFillTx ar env p w).2)

theorem execFund_store (ar : Arith) (id : Uuid) (n : Elsewhere id) (o : FundAct) (w : World) :
    (execFund ar id n o w).2 = n.change (o.after ar n.bus w) := by
  cases o <;> rfl

/-- A database and the calls that are going to run on it. -/
def fundTasks {ι : Type} (ts : ι → FundTask) (w : World) :
    Pool FundAct FundAct.Reply ActError World ι :=
  ⟨w, fun i => (ts i).task⟩

/-! ## What is moved -/

/-- All locked balances together. -/
def World.lockedAll (w : World) : Int := w.lockedSum fun _ => 1

/-- The intent on whose behalf an act moves funds. -/
def FundAct.behalf (w : World) : FundAct → Option Uuid
  | .act (.tx (.release id ..)) => some id
  | .act (.tx (.expire i _)) => some i.id
  | .settleFill _ p => (w.fill p.fillId).map (·.intentId)
  | _ => none

/-- What an act takes out of the locked balances on behalf of the intent. -/
def FundAct.takes (ar : Arith) (bus : Bus) (id : Uuid) (o : FundAct) (w : World) : Int :=
  if o.behalf w = some id then w.lockedAll - (o.after ar bus w).lockedAll else 0

/-- What the acts on behalf of an intent have taken out of the locked balances; these acts do not
talk to Redis. -/
def movedOut {ι : Type} (ar : Arith) (id : Uuid) (l : List (Done FundAct World ι)) : Int :=
  (l.map fun d => d.op.takes ar upBus id d.store).sum

/-- The act returns funds to an available balance, rather than to settle. -/
def FundAct.returns : FundAct → Bool
  | .act (.tx _) => true
  | _ => false

/-! ## Sound releases -/

/-- The intent is live and nothing of it is settled. -/
def World.untouched (w : World) (id : Uuid) : Bool := w.live id && decide (w.settledQty id ≤ 0)

/-- The fills of the intent are not negative, and within its amount. -/
def World.notOverfilled (w : World) (id : Uuid) : Bool :=
  (w.amount id).all (fun x => decide (w.filled id ≤ x)) &&
    w.fills.rows.all fun f => f.intentId != id || decide (0 ≤ f.filledQty)

/-- An act on behalf of the intent: funds are released to its owner while it is untouched, expiry
works on a copy that does not ask for more than the intent has, and fills are settled while the
intent is live and not overfilled. -/
def FundAct.sound (id owner : Uuid) (w : World) : FundAct → Bool
  | .act (.tx (.release id' a _ _ _ _)) => id' != id || (w.untouched id && a == owner)
  | .act (.tx (.expire i _)) => i.id != id || !(w.status id).any (·.amendable) ||
      (w.untouched id && (w.amount id).all (fun x => decide (i.amountIn ≤ x)) &&
        (w.expiryCell i).all fun k => k.1 == owner)
  | .settleFill _ p => (w.fill p.fillId).all fun f =>
      f.intentId != id || f.settled || (w.live id && w.notOverfilled id)
  | _ => true

/-! ## What an act does to an intent and its funds -/

section Effects

variable {ar : Arith} {bus : Bus} {w w₁ w' : World} {id : Uuid} {o : FundAct}

theorem World.settledQty_of_fills (h : w'.fills = w.fills) : w'.settledQty id = w.settledQty id := by
  unfold World.settledQty
  rw [h]

theorem World.amount_of_intents (h : w'.intents = w.intents) : w'.amount id = w.amount id := by
  unfold World.amount World.intent
  rw [h]

theorem World.live_of_intents (h : w'.intents = w.intents) : w'.live id = w.live id := by
  unfold World.live
  rw [World.status_of_intents h]

theorem World.status_setStatus_self (w : World) (id : Uuid) (st : IntentStatus) :
    (w.setStatus id st).status id = (w.status id).map fun _ => st := by
  unfold World.status World.intent World.setStatus
  rw [Table.find_update_pk]
  rcases hi : w.intents.find (fun i => decide (i.id = id)) with _ | i
  · rfl
  · simp [(Table.find_pk_iff.1 hi).2]

/-- A terminal status closes the intent, and leaves the others alone. -/
theorem World.live_setStatus {id' : Uuid} {st : IntentStatus} (hst : id' = id → st.terminal = true)
    (h : (w.setStatus id' st).live id = true) : id' ≠ id ∧ w.live id = true := by
  by_cases hid : id' = id
  · subst hid
    unfold World.live at h
    rw [World.status_setStatus_self] at h
    cases hs : w.status id' with
    | none => simp [hs] at h
    | some st₀ => simp [hs, hst rfl] at h
  · refine ⟨hid, ?_⟩
    unfold World.live at h ⊢
    rcases w.status_setStatus id' id st with hs | ⟨rfl, -⟩
    · rwa [hs] at h
    · exact absurd rfl hid

/-- Nothing that concerns the intent. -/
structure Unmoved (id : Uuid) (o : FundAct) (w w' : World) : Prop where
  amount : w'.amount id = w.amount id
  settledQty : w'.settledQty id = w.settledQty id
  live : w'.live id = true → w.live id = true
  still : o.behalf w = some id → w'.balances = w.balances

/-- The funds of the intent are returned to a cell, `r` of them, and the intent is closed. -/
structure Returned (id : Uuid) (k : Cell) (r : Int) (w w' : World) : Prop where
  amount : w'.amount id = w.amount id
  settledQty : w'.settledQty id = w.settledQty id
  closed : w'.live id = false
  locked : w'.lockedAll = w.lockedAll - r
  avail : ∀ k', k ≠ k' → w'.avail k' = w.avail k'

/-- A fill of the intent is settled. -/
structure Consumed (id : Uuid) (f : Fill) (w w' : World) : Prop where
  amount : w'.amount id = w.amount id
  settledQty : w'.settledQty id = w.settledQty id + f.filledQty
  live : w'.live id = w.live id
  locked : w'.lockedAll = w.lockedAll - f.filledQty

theorem Unmoved.refl (id : Uuid) (o : FundAct) (w : World) : Unmoved id o w w :=
  ⟨rfl, rfl, fun h => h, fun _ => rfl⟩

/-- The status of another intent is set. -/
theorem Unmoved.of_other {id' : Uuid} {st : IntentStatus} (hint : w₁.intents = w.intents)
    (hfill : w₁.fills = w.fills) (hid : id' ≠ id) (ho : o.behalf w ≠ some id) :
    Unmoved id o w (w₁.setStatus id' st) where
  amount := ((SameAmounts.setStatus w₁ id' st).amount id).trans (World.amount_of_intents hint)
  settledQty := by
    show w₁.settledQty id = w.settledQty id
    exact World.settledQty_of_fills hfill
  live := fun h => by
    rw [← World.live_of_intents hint]
    exact (World.live_setStatus (fun he => absurd he hid) h).2
  still := fun h => absurd h ho

theorem Returned.of_moves {k : Cell} {r : Int} {st : IntentStatus} (hm : Moves k r (-r) w w₁)
    (hst : st.terminal = true) : Returned id k r w (w₁.setStatus id st) where
  amount := ((SameAmounts.setStatus w₁ id st).amount id).trans ((SameAmounts.moves hm).amount id)
  settledQty := by
    show w₁.settledQty id = w.settledQty id
    exact World.settledQty_of_fills (by rw [hm.frame])
  closed := by
    by_contra hlive
    rw [Bool.not_eq_false] at hlive
    exact (World.live_setStatus (fun _ => hst) hlive).1 rfl
  locked := by
    show w₁.lockedAll = _
    unfold World.lockedAll
    rw [hm.locked]
    ring
  avail := fun k' hk => by
    show w₁.avail k' = _
    exact hm.avail_ne hk

theorem release_effect {id' a : Uuid} {s : Asset} {x now : Int} {st : IntentStatus}
    (hst : id' = id → st.terminal = true)
    (hx : Call.exec (execStmt ar) (releaseBody id' a s x now st) w = (.ok (), w')) :
    Unmoved id (.act (.tx (.release id' a s x now st))) w w' ∨
      id' = id ∧ Returned id (a, s) (w.ifRow a s x) w w' := by
  obtain ⟨w₁, hm, rfl⟩ := releaseBody_ok hx
  by_cases hid : id' = id
  · subst hid
    exact .inr ⟨rfl, .of_moves hm (hst rfl)⟩
  · have hint : w₁.intents = w.intents := by rw [hm.frame]
    have hfill : w₁.fills = w.fills := by rw [hm.frame]
    exact .inl (.of_other hint hfill hid fun h => hid (Option.some.inj h))

theorem expire_effect (id : Uuid) {i : Intent} {now : Int} {b : Bool}
    (hx : Call.exec (execStmt ar) (expireBody i now) w = (.ok b, w')) :
    Unmoved id (.act (.tx (.expire i now))) w w' ∨
      i.id = id ∧ (w.status id).any (·.amendable) = true ∧
        ((∃ k, w.expiryCell i = some k ∧ Returned id k (w.ifLocked k.1 k.2 i.amountIn) w w') ∨
          ∀ k, Returned id k 0 w w') := by
  rcases expireBody_ok hx with ⟨-, rfl⟩ | ⟨cur, w₁, hcur, hst, hmove, hstay, rfl⟩
  · exact .inl (.refl id _ _)
  have hframe : w₁ = { w with balances := w₁.balances } := by
    rcases hc : w.expiryCell i with _ | k
    · rw [hstay hc]
    · exact (hmove k hc).frame
  by_cases hid : i.id = id
  · subst hid
    refine .inr ⟨rfl, by simp [World.status, hcur, hst], ?_⟩
    rcases hc : w.expiryCell i with _ | k
    · right
      rw [hstay hc]
      exact fun k => .of_moves (by simpa using Moves.refl k w) rfl
    · left
      have hm := hmove k hc
      rw [World.expiryRelease, hc] at hm
      exact ⟨k, rfl, .of_moves hm rfl⟩
  · left
    exact .of_other (by rw [hframe]) (by rw [hframe]) hid fun h => hid (Option.some.inj h)

theorem settle_effect (id : Uuid) {env : Env} {p : SettleFillArgs}
    (hx : Call.exec (execStmt ar) (settleFill ar env p) w = (.ok (), w')) :
    ∃ f, w.fill p.fillId = some f ∧ f.settled = false ∧
      (Unmoved id (.settleFill env p) w w' ∨ f.intentId = id ∧ Consumed id f w w') := by
  obtain ⟨f, w₁, w₂, hf, hset, hmv, hbk, rfl⟩ := settleFill_ok hx
  have hframe : w₂ = { w with balances := w₁.balances, ledgerEntries := w₂.ledgerEntries } := by
    rw [hbk.frame, hmv.frame]
  have hint : (w₂.markFill p.fillId (env.now 0)).intents = w.intents := by
    rw [hframe]
    rfl
  have hfill₂ : w₂.fill p.fillId = some f := by
    rw [hframe]
    exact hf
  have hqty₂ : w₂.settledQty id = w.settledQty id := World.settledQty_of_fills (by rw [hframe])
  refine ⟨f, hf, hset, ?_⟩
  by_cases hid : f.intentId = id
  · refine .inr ⟨hid, World.amount_of_intents hint, ?_, World.live_of_intents hint, ?_⟩
    · rw [World.settledQty_markFill hfill₂ hset, if_pos hid, hqty₂]
    · show w₂.lockedAll = _
      unfold World.lockedAll
      have hbooks : w₂.lockedSum (fun _ => 1) = w₁.lockedSum fun _ => 1 := by
        rw [hbk.frame]
        rfl
      rw [hbooks, hmv.lockedSum, one_mul]
  · refine .inl ⟨World.amount_of_intents hint, ?_, fun h => ?_, fun h => ?_⟩
    · rw [World.settledQty_markFill hfill₂ hset, if_neg hid, hqty₂, add_zero]
    · rwa [World.live_of_intents hint] at h
    · simp only [FundAct.behalf, hf, Option.map_some, Option.some.injEq] at h
      exact absurd h hid

/-- What the calls issue: a release of an intent's amount `x` closes the intent. -/
def mayMove (id : Uuid) (x : Int) : FundAct → Prop
  | .act (.tx (.release id' _ _ y _ st)) => id' = id → st.terminal = true ∧ y = x
  | .act (.tx (.expire ..)) | .act (.sql (.selectIntent _)) | .act (.publish _) => True
  | .act (.stream _) | .settleFill .. => True
  | _ => False

/-- What an act does to the intent `id` and its funds. -/
inductive FundEffect (id : Uuid) (x : Int) (o : FundAct) (w w' : World) : Prop
  | unmoved (h : Unmoved id o w w')
  | released (a : Uuid) (s : Asset) (now : Int) (st : IntentStatus)
      (ho : o = .act (.tx (.release id a s x now st)))
      (h : Returned id (a, s) (w.ifRow a s x) w w')
  | expired (i : Intent) (now : Int) (ho : o = .act (.tx (.expire i now))) (hid : i.id = id)
      (hst : (w.status id).any (·.amendable) = true)
      (h : (∃ k, w.expiryCell i = some k ∧ Returned id k (w.ifLocked k.1 k.2 i.amountIn) w w') ∨
        ∀ k, Returned id k 0 w w')
  | settled (env : Env) (p : SettleFillArgs) (f : Fill) (ho : o = .settleFill env p)
      (hf : w.fill p.fillId = some f) (hset : f.settled = false) (hid : f.intentId = id)
      (h : Consumed id f w w')

theorem FundEffect.of_same {x : Int} (hb : w'.balances = w.balances) (hi : w'.intents = w.intents)
    (hf : w'.fills = w.fills) : FundEffect id x o w w' := by
  refine .unmoved ⟨World.amount_of_intents hi, World.settledQty_of_fills hf, fun h => ?_, fun _ => hb⟩
  rwa [World.live_of_intents hi] at h

theorem settleFill_fundEffect (ar : Arith) (w : World) (id : Uuid) (x : Int) (env : Env)
    (p : SettleFillArgs) : FundEffect id x (.settleFill env p) w (settleFillTx ar env p w).2 := by
  unfold settleFillTx
  rcases Call.transaction_cases (h := execStmt ar) (IntentX.settleFill ar env p) w with
    ⟨r, w', hx, ht⟩ | ⟨e, ht⟩
  · rw [ht]
    obtain ⟨f, hf, hset, h | ⟨hid, h⟩⟩ := settle_effect id hx
    · exact .unmoved h
    · exact .settled env p f rfl hf hset hid h
  · rw [ht]
    exact .unmoved (.refl id _ w)

theorem tx_fundEffect (ar : Arith) (bus : Bus) (w : World) {x : Int} {t : Tx}
    (hmay : mayMove id x (.act (.tx t))) :
    FundEffect id x (.act (.tx t)) w (execAct ar bus (.tx t) w).2 := by
  simp only [execAct]
  rcases Call.transaction_cases (h := execStmt ar) (t.body ar) w with ⟨r, w', hx, ht⟩ | ⟨e, ht⟩
  case inr =>
    rw [ht]
    exact .unmoved (.refl id _ w)
  rw [ht]
  cases t with
  | create | amend => cases hmay
  | release id' a s y now st =>
    rcases release_effect (fun hid => (hmay hid).1) (Call.exec_mapErr_ok.1 hx) with h | ⟨rfl, h⟩
    · exact .unmoved h
    · obtain ⟨-, rfl⟩ := hmay rfl
      exact .released a s now st rfl h
  | expire i now =>
    rcases expire_effect id (Call.exec_mapErr_ok.1 hx) with h | ⟨hid, hst, h⟩
    · exact .unmoved h
    · exact .expired i now rfl hid hst h

theorem FundAct.effect (ar : Arith) (bus : Bus) (w : World) {x : Int} (hmay : mayMove id x o) :
    FundEffect id x o w (o.after ar bus w) := by
  cases o with
  | settleFill env p => exact settleFill_fundEffect ar w id x env p
  | act o =>
    cases o with
    | sql o =>
      cases o with
      | selectIntent => exact .of_same rfl rfl rfl
      | _ => cases hmay
    | publish e =>
      obtain ⟨l, hl⟩ := execAct_publish ar bus w e
      simp only [FundAct.after, hl]
      exact .of_same rfl rfl rfl
    | stream e =>
      obtain ⟨l, hl⟩ := execAct_stream ar bus w e
      simp only [FundAct.after, hl]
      exact .of_same rfl rfl rfl
    | tx t => exact tx_fundEffect ar bus w hmay

end Effects

/-! ## Accounting for the funds of an intent -/

/-- The amount of the intent is `x`, `m` of it has been moved out, and as long as it is live that
is what is settled. -/
structure Accounted (id : Uuid) (x m : Int) (w : World) : Prop where
  amount : w.amount id = some x
  within : m ≤ x
  live : w.live id = true → m = w.settledQty id

section Accounting

variable {ar : Arith} {bus : Bus} {w w' : World} {id owner : Uuid} {x m : Int} {o : FundAct}

/-- What a fill leaves to settle of an intent. -/
def Fill.openQty (id : Uuid) (f : Fill) : Int :=
  if f.intentId = id ∧ f.settled = false then f.filledQty else 0

/-- An unsettled fill is not part of what is settled. -/
theorem World.settledQty_add_le {f : Fill} (hf : f ∈ w.fills.rows) (hid : f.intentId = id)
    (hset : f.settled = false) (hpos : ∀ g ∈ w.fills.rows, g.intentId = id → 0 ≤ g.filledQty) :
    w.settledQty id + f.filledQty ≤ w.filled id := by
  have hsplit : w.filled id = w.settledQty id + (w.fills.rows.map (·.openQty id)).sum := by
    unfold World.filled World.settledQty Table.sum
    rw [← sum_map_add_sub]
    refine congrArg List.sum (List.map_congr_left fun g _ => ?_)
    by_cases hg : g.intentId = id <;> cases hs : g.settled <;> simp [Fill.openQty, hg, hs]
  have hle : f.openQty id ≤ (w.fills.rows.map (·.openQty id)).sum := by
    refine List.single_le_sum (fun v hv => ?_) _ (List.mem_map_of_mem hf)
    obtain ⟨g, hg, rfl⟩ := List.mem_map.1 hv
    unfold Fill.openQty
    split
    · next h => exact hpos g hg h.1
    · exact le_refl 0
  have hopen : f.openQty id = f.filledQty := if_pos ⟨hid, hset⟩
  omega

theorem FundAct.after_bus (bus' : Bus) (hb : o.behalf w = some id) :
    o.after ar bus w = o.after ar bus' w := by
  cases o with
  | settleFill env p => rfl
  | act o =>
    cases o with
    | tx t => rfl
    | sql | publish | stream => cases hb

theorem FundAct.takes_bus (bus bus' : Bus) (o : FundAct) (w : World) :
    o.takes ar bus id w = o.takes ar bus' id w := by
  unfold FundAct.takes
  split
  · next hb => rw [FundAct.after_bus bus' hb]
  · rfl

theorem FundAct.takes_of_locked {r : Int} (hb : o.behalf w = some id)
    (hr : (o.after ar bus w).lockedAll = w.lockedAll - r) : o.takes ar bus id w = r := by
  rw [FundAct.takes, if_pos hb, hr, sub_sub_cancel]

/-- After the act the funds are accounted for, and what it returns it returns to the owner. -/
structure FundAct.Keeps (ar : Arith) (bus : Bus) (id owner : Uuid) (x m : Int) (o : FundAct)
    (w : World) : Prop where
  account : Accounted id x (m + o.takes ar bus id w) (o.after ar bus w)
  credit : o.behalf w = some id → o.returns = true → ∀ k : Cell, k.1 ≠ owner →
    (o.after ar bus w).avail k = w.avail k

theorem Accounted.unmoved (h : Accounted id x m w) (hu : Unmoved id o w (o.after ar bus w)) :
    o.Keeps ar bus id owner x m w := by
  have htake : o.takes ar bus id w = 0 := by
    unfold FundAct.takes
    split
    · next hb =>
      unfold World.lockedAll World.lockedSum
      rw [hu.still hb, sub_self]
    · rfl
  refine ⟨?_, fun hb _ k _ => ?_⟩
  · rw [htake, add_zero]
    refine ⟨hu.amount.trans h.amount, h.within, fun hl => ?_⟩
    rw [hu.settledQty]
    exact h.live (hu.live hl)
  · unfold World.avail World.availSum
    rw [hu.still hb]

/-- At most the amount of an untouched intent is returned. -/
theorem Accounted.returned {k : Cell} {r : Int} (h : Accounted id x m w)
    (hb : o.behalf w = some id) (hr : Returned id k r w (o.after ar bus w))
    (hun : w.untouched id = true) (hle : r ≤ x ∨ r = 0) (hk : k.1 = owner) :
    o.Keeps ar bus id owner x m w := by
  simp only [World.untouched, Bool.and_eq_true, decide_eq_true_eq] at hun
  have hm := h.live hun.1
  have hw := h.within
  refine ⟨?_, fun _ _ k' hk' => hr.avail k' fun he => hk' ?_⟩
  · rw [FundAct.takes_of_locked hb hr.locked]
    refine ⟨hr.amount.trans h.amount, ?_, fun hl => ?_⟩
    · rcases hle with hle | hle <;> omega
    · rw [hr.closed] at hl
      cases hl
  · rw [← he]
    exact hk

/-- A fill of an intent that is not overfilled is settled. -/
theorem Accounted.consumed {env : Env} {p : SettleFillArgs} {f : Fill} (h : Accounted id x m w)
    (hf : w.fill p.fillId = some f) (hset : f.settled = false) (hid : f.intentId = id)
    (hr : Consumed id f w (FundAct.after ar bus (.settleFill env p) w)) (hlive : w.live id = true)
    (hroom : w.notOverfilled id = true) :
    FundAct.Keeps ar bus id owner x m (.settleFill env p) w := by
  have hb : FundAct.behalf w (.settleFill env p) = some id := by simp [FundAct.behalf, hf, hid]
  have hm := h.live hlive
  simp only [World.notOverfilled, h.amount, Option.all_some, Bool.and_eq_true,
    decide_eq_true_eq] at hroom
  obtain ⟨hfilled, hpos⟩ := hroom
  have hadd : w.settledQty id + f.filledQty ≤ w.filled id := by
    refine World.settledQty_add_le (Table.find_pk_iff.1 hf).1 hid hset fun g hg hgid => ?_
    have hg' := List.all_eq_true.1 hpos g hg
    simpa [hgid] using hg'
  refine ⟨?_, fun _ hret => (nomatch hret)⟩
  rw [FundAct.takes_of_locked hb hr.locked]
  refine ⟨hr.amount.trans h.amount, by omega, fun _ => ?_⟩
  rw [hr.settledQty, hm]

/-- **A sound act keeps the account**, and what it returns it returns to the owner. -/
theorem Accounted.step (ar : Arith) (bus : Bus) (h : Accounted id x m w) (hmay : mayMove id x o)
    (hsound : o.sound id owner w = true) : o.Keeps ar bus id owner x m w := by
  cases FundAct.effect ar bus w hmay with
  | unmoved hu => exact h.unmoved hu
  | released a s now st ho hr =>
    subst ho
    simp only [FundAct.sound, bne_self_eq_false, Bool.false_or, Bool.and_eq_true, beq_iff_eq] at hsound
    refine h.returned rfl hr hsound.1 ?_ hsound.2
    unfold World.ifRow
    split
    · exact .inl (le_refl x)
    · exact .inr rfl
  | expired i now ho hid hst hr =>
    subst ho
    subst hid
    simp only [FundAct.sound, bne_self_eq_false, Bool.false_or, hst, Bool.not_true, h.amount,
      Option.all_some, Bool.and_eq_true, decide_eq_true_eq] at hsound
    obtain ⟨⟨hun, hamount⟩, hcell⟩ := hsound
    rcases hr with ⟨k, hk, hr⟩ | hr
    · simp only [hk, Option.all_some, beq_iff_eq] at hcell
      refine h.returned rfl hr hun ?_ hcell
      unfold World.ifLocked
      split
      · exact .inl hamount
      · exact .inr rfl
    · -- no account of the user was found, and nothing is returned
      exact h.returned rfl (hr (owner, .USDC)) hun (.inr rfl) rfl
  | settled env p f ho hf hset hid hr =>
    subst ho
    simp only [FundAct.sound, hf, Option.all_some, hid, bne_self_eq_false, Bool.false_or, hset,
      Bool.and_eq_true] at hsound
    exact h.consumed hf hset hid hr hsound.1 hsound.2

end Accounting

/-! ## Runs -/

section Runs

variable {ι : Type} {ar : Arith} {id owner : Uuid} {x s₀ : Int}

def fundProtocol (ar : Arith) (id owner : Uuid) (x s₀ : Int) : Protocol (execFund ar id) ι where
  inv y := Accounted id x (s₀ + movedOut ar id y.1) y.2
  rely _ _ := True
  may _ _ o := mayMove id x o
  given _ y o := o.sound id owner y.2 = true
  refl _ := trivial
  trans _ _ := trivial
  step {i y o} n hinv hmay hsound := by
    have hstep := (hinv.step ar n.bus hmay hsound).account
    have hout : s₀ + movedOut ar id (y.next (execFund ar id) i n o).1 =
        s₀ + movedOut ar id y.1 + o.takes ar n.bus id y.2 := by
      rw [FundAct.takes_bus n.bus upBus]
      simp only [movedOut, Trace.next, List.map_cons, List.sum_cons]
      ring
    refine ⟨?_, trivial⟩
    rw [hout]
    show Accounted id x _ (execFund ar id n o y.2).2
    rw [execFund_store]
    refine ⟨(n.amount _).trans hstep.amount, hstep.within, fun hl => ?_⟩
    rw [n.settledQty]
    exact hstep.live (n.closed _ hl)

/-- A call that only issues what it may. -/
theorem obeys_lift {α : Type} {i : ι} {p : Prog Act Act.Reply ActError α}
    (hp : p.Issues fun o => mayMove id x (.act o)) :
    (fundProtocol ar id owner x s₀).Obeys i (Prog.embed FundAct.act (fun _ r => r) p) :=
  Protocol.obeys_of_issues (fun _ ho _ => ho) (Prog.issues_embed hp)

/-- Cancelling and failing release the amount of the intent, and close it. -/
theorem closeIntent_obeys (i : ι) (env : Env) {st : IntentStatus} (hst : st.terminal = true)
    (event : Intent → Event) (id' a : Uuid) : (fundProtocol ar id owner x s₀).Obeys i
      (Prog.embed FundAct.act (fun _ r => r) (inPool (closeIntent env st event id' a))) := by
  unfold inPool
  rw [Prog.embed_bind]
  refine Protocol.obeys_bind (fun y => ?_) fun _ => Protocol.obeys_ret _
  refine Protocol.follows_embed_bind (Protocol.follows_embed_bind ?_)
  intro z _ _ hinv _
  refine ⟨trivial, fun n => ?_⟩
  show (fundProtocol ar id owner x s₀).Follows i _
    (.ret (Except.ok (some (z.2.intent id')) : Except IntentError (Option (Option Intent)))) _
  refine Protocol.follows_ret (Protocol.follows_ret ?_)
  rw [Option.join_some]
  rcases hi : z.2.intent id' with _ | intent
  · exact Protocol.follows_ret trivial
  have hread : id' = id → st.terminal = true ∧ intent.amountIn = x := by
    rintro rfl
    have hx : z.2.amount id' = some x := hinv.amount
    rw [World.amount, hi] at hx
    exact ⟨hst, Option.some.inj hx⟩
  refine obeys_lift ?_ _
  refine Call.issues_bind Call.issues_orThrow fun _ => ?_
  refine Call.issues_bind (Call.issues_op hread) fun _ => ?_
  exact Call.issues_bind (Call.issues_op trivial) fun _ => Call.issues_pure _

theorem FundTask.obeys (i : ι) (t : FundTask) : (fundProtocol ar id owner x s₀).Obeys i t.task := by
  cases t with
  | cancelIntent env id' a => exact closeIntent_obeys i env rfl .IntentCancelled id' a
  | failIntent env id' a => exact closeIntent_obeys i env rfl .IntentFailed id' a
  | expireIntent env j =>
    refine obeys_lift (Prog.issues_bind ?_ fun _ => trivial)
    refine Call.issues_bind (Call.issues_op trivial) fun _ => Call.issues_doIf ?_
    refine Call.issues_bind (Call.issues_attempt trivial) fun _ => ?_
    exact Call.issues_bind (Call.issues_attempt trivial) fun _ => Call.issues_pure _
  | settleFill env p =>
    exact Protocol.obeys_bind (Protocol.obeys_ask fun _ => trivial) fun _ => Protocol.obeys_ret _

/-- **Funds are released once, and to their owner.**  In any interleaving of the calls in which
every act on behalf of the intent is sound, no more than its amount leaves the locked balances, and
all that is returned is credited to the owner. -/
theorem released_once [DecidableEq ι] (ar : Arith) (ts : ι → FundTask) (w₀ : World)
    (id owner : Uuid) (x : Int) (l : List (Done FundAct World ι))
    (p : Pool FundAct FundAct.Reply ActError World ι) (hx : w₀.amount id = some x)
    (hset : w₀.settledQty id ≤ x) (run : Pool.Run (execFund ar id) (fundTasks ts w₀) l p)
    (hsound : ∀ d ∈ l, d.op.sound id owner d.store = true) :
    w₀.settledQty id + movedOut ar id l ≤ x ∧
      ∀ d ∈ l, d.op.behalf d.store = some id → d.op.returns = true → ∀ k : Cell, k.1 ≠ owner →
        (d.op.after ar upBus d.store).avail k = d.store.avail k := by
  have hstart : Accounted id x
      (w₀.settledQty id + movedOut ar id ([] : List (Done FundAct World ι))) w₀ :=
    ⟨hx, by simpa [movedOut] using hset, fun _ => by simp [movedOut]⟩
  obtain ⟨hkept, -⟩ := Protocol.run_follows
    (P := fundProtocol ar id owner x (w₀.settledQty id)) run
    (Protocol.given_of_mem fun d hd _ => hsound d hd) hstart fun i => FundTask.obeys i (ts i) _
  refine ⟨hkept.inv.within, fun d hd hb hret k hk => ?_⟩
  obtain ⟨l', hinv, hmay, hgiven, -⟩ := hkept.past d hd
  exact (hinv.step ar upBus hmay hgiven).credit hb hret k hk

end Runs

/-! ## Cancelling twice -/

/-- The owner cancels intent 1000 twice. -/
def cancelTwice : Bool → FundTask := fun _ => .cancelIntent demoEnv 1000 2

/-- Redis works, and nothing else changes. -/
def nothingElse : Elsewhere 1000 where
  bus := upBus
  change := id
  amount _ := rfl
  settledQty _ := rfl
  closed _ h := h

/-- The two calls take their turns in the given order; intent 1000 has been created for 100. -/
def cancelRun (order : List Bool) :
    List (Done FundAct World Bool) × Pool FundAct FundAct.Reply ActError World Bool :=
  Pool.play (execFund .release 1000) (order.map fun i => (i, nothingElse))
    ([], fundTasks cancelTwice createdLocks.world)

theorem cancelRun_run (order : List Bool) :
    Pool.Run (execFund .release 1000) (fundTasks cancelTwice createdLocks.world) (cancelRun order).1
      (cancelRun order).2 := by
  apply Pool.Run.play
  exact .start

/-- The first call releases the 100. -/
theorem cancelled_once_released :
    movedOut .release 1000 (cancelRun [false, false, false]).1 = 100 ∧
      createdLocks.world.settledQty 1000 +
        movedOut .release 1000 (cancelRun [false, false, false]).1 ≤ 100 := by
  refine ⟨by decide +kernel, ?_⟩
  exact (released_once .release cancelTwice createdLocks.world 1000 2 100 _ _ (by decide +kernel)
    (by decide +kernel) (cancelRun_run _) (by decide +kernel)).1

/-- The second call releases another 100. -/
theorem cancelled_twice_released :
    ¬ ∀ (ts : Bool → FundTask) (w₀ : World) (id owner : Uuid) (x : Int)
      (l : List (Done FundAct World Bool)) (p : Pool FundAct FundAct.Reply ActError World Bool),
      w₀.amount id = some x → w₀.settledQty id ≤ x →
      Pool.Run (execFund .release id) (fundTasks ts w₀) l p →
      w₀.settledQty id + movedOut .release id l ≤ x ∧
        ∀ d ∈ l, d.op.behalf d.store = some id → d.op.returns = true → ∀ k : Cell, k.1 ≠ owner →
          (d.op.after .release upBus d.store).avail k = d.store.avail k := by
  intro h
  have hbad := (h cancelTwice createdLocks.world 1000 2 100 _ _ (by decide +kernel)
    (by decide +kernel) (cancelRun_run [false, false, false, true, true, true])).1
  revert hbad
  decide +kernel

end IntentX
