import IntentX.Lib.Pool
import IntentX.NonNegative

/-!
# Terminal statuses under concurrency

The tasks that write an intent's status run side by side, one act at a time (`Lib.Pool`).  An act
either writes the status without looking at the stored one (`Act.blind`), or inside a transaction
that has locked and checked the row first (`Act.checked`).  `execAct_status` says all an act can do
to a stored status; everything below follows from it.

The blind writers rely on what they read before.  `liveView i id` says, of the history of a run,
that task `i` has read intent `id`, found it live, and that nothing has stored a terminal status
since.  If every blind write that changes a status happens with a live view, a terminal status
stays.
-/

namespace IntentX

open Lib

/-- The stored status of an intent. -/
def World.status (w : World) (id : Uuid) : Option IntentStatus := (w.intent id).map (·.status)

/-! ## What an act does to a status -/

/-- The status an act writes over whatever is stored. -/
def Act.blind : Act → Option (Uuid × IntentStatus)
  | .sql (.setIntentStatus id st) => some (id, st)
  | .sql (.amendIntentRow id _ _ _) => some (id, .Open)
  | .sql (.triggerStop id _ _) => some (id, .Open)
  | .sql (.completeIntent id) => some (id, .Completed)
  | .tx (.release id _ _ _ _ st) => some (id, st)
  | _ => none

/-- The status an act writes after it has found the stored one to be open or bidding. -/
def Act.checked : Act → Option (Uuid × IntentStatus)
  | .tx (.amend id _ _ _ _ _) => some (id, .Open)
  | .tx (.expire i _) => some (i.id, .Expired)
  | _ => none

section Status

variable {ar : Arith} {bus : Bus} {w w' : World} {id : Uuid}

theorem World.status_of_intents (h : w'.intents = w.intents) : w'.status id = w.status id := by
  unfold World.status World.intent
  rw [h]

/-- An update of the row `id'` that sets the status to `st` sets that status, or none at all. -/
theorem World.status_write {id' : Uuid} {st : IntentStatus} {p : Intent → Bool}
    {f : Intent → Intent} (hw : w'.intents.rows = w.intents.rows.map fun i => if p i then f i else i)
    (hp : ∀ i, p i = true → i.id = id') (hf : ∀ i, (f i).id = i.id ∧ (f i).status = st) :
    w'.status id = w.status id ∨ id' = id ∧ w'.status id = some st := by
  have hupd : w'.intents = w.intents.update p f fun i => ⟨(hf i).1, (hf i).1⟩ := Table.ext hw
  unfold World.status World.intent
  rw [hupd, Table.find_update_pk]
  rcases hi : w.intents.find (fun i => decide (i.id = id)) with _ | i
  · exact .inl rfl
  · have hid : i.id = id := (World.intent_some_iff.1 hi).2
    simp only [Option.map_some, Option.some.injEq]
    split
    · next hpi => exact .inr ⟨(hp i hpi).symm.trans hid, (hf i).2⟩
    · exact .inl rfl

theorem World.status_setStatus (w : World) (id' id : Uuid) (st : IntentStatus) :
    (w.setStatus id' st).status id = w.status id ∨
      id' = id ∧ (w.setStatus id' st).status id = some st :=
  World.status_write rfl (fun _ => of_decide_eq_true) fun _ => ⟨rfl, rfl⟩

theorem World.status_amendRow (w : World) (id' id : Uuid) (x y : Int) (p : Option Int) :
    (w.amendRow id' x y p).status id = w.status id ∨
      id' = id ∧ (w.amendRow id' x y p).status id = some .Open :=
  World.status_write rfl (fun _ => of_decide_eq_true) fun _ => ⟨rfl, rfl⟩

/-- A new row has a status of its own. -/
theorem World.status_insert {i : Intent} {t} (h : w.intents.insert i = some t) :
    { w with intents := t }.status id = w.status id ∨ w.status id = none := by
  unfold World.status World.intent
  show (t.find _).map _ = _ ∨ _
  rw [Table.find_insert_uk h]
  split
  · next hid =>
    right
    have hfree := Table.insert_isSome_iff.1 (Option.isSome_of_eq_some h)
    rw [Option.map_eq_none_iff, hid]
    exact Table.find_pk_none.2 fun r hr => (hfree r hr).1
  · exact .inl rfl

theorem updateBalances_intents {p : Balance → Bool} {f : Balance → Balance} {hf} :
    (w.updateBalances ar p f hf).2.intents = w.intents := by
  unfold World.updateBalances
  split <;> rfl

theorem inserted_intents {τ : Type} {set : τ → World} {t : Option τ}
    (h : ∀ x, (set x).intents = w.intents) : (inserted w set t).2.intents = w.intents := by
  cases t with
  | none => rfl
  | some x => exact h x

/-- What a statement does to a stored status. -/
theorem execStmt_status (ar : Arith) (o : Stmt) (w : World) (id : Uuid) :
    (execStmt ar o w).2.status id = w.status id ∨ w.status id = none ∨
      ∃ st, (Act.sql o).blind = some (id, st) ∧ (execStmt ar o w).2.status id = some st := by
  -- a write to the intents table, read as a blind one
  have hwrite : ∀ {id' : Uuid} {st : IntentStatus}, (Act.sql o).blind = some (id', st) →
      ((execStmt ar o w).2.status id = w.status id ∨
        id' = id ∧ (execStmt ar o w).2.status id = some st) →
      (execStmt ar o w).2.status id = w.status id ∨ w.status id = none ∨
        ∃ st, (Act.sql o).blind = some (id, st) ∧ (execStmt ar o w).2.status id = some st := by
    rintro id' st hb (hsame | ⟨rfl, hst⟩)
    · exact .inl hsame
    · exact .inr (.inr ⟨st, hb, hst⟩)
  cases o with
  | setIntentStatus id' st => exact hwrite rfl (w.status_setStatus id' id st)
  | amendIntentRow id' x y p =>
    exact hwrite rfl (w.status_amendRow id' id x y p)
  | triggerStop id' ty now =>
    refine hwrite rfl (World.status_write rfl (fun i hi => ?_) fun _ => ⟨rfl, rfl⟩)
    simp only [Bool.and_eq_true, decide_eq_true_eq] at hi
    exact hi.1.1
  | completeIntent id' =>
    refine hwrite rfl (World.status_write rfl (fun i hi => ?_) fun _ => ⟨rfl, rfl⟩)
    simp only [Bool.and_eq_true, decide_eq_true_eq] at hi
    exact hi.1
  | insertIntent i =>
    simp only [execStmt]
    rcases ht : w.intents.insert i with _ | t
    · exact .inl rfl
    · exact (World.status_insert ht).imp_right .inl
  | insertBalance b =>
    simp only [execStmt]
    split
    · exact .inl (World.status_of_intents (inserted_intents fun _ => rfl))
    · exact .inl rfl
  | insertFill f => exact .inl (World.status_of_intents (inserted_intents fun _ => rfl))
  | insertExecution e => exact .inl (World.status_of_intents (inserted_intents fun _ => rfl))
  | unlockAndDebit | lockFunds | unlockFunds | unlockFundsIfLocked =>
    exact .inl (World.status_of_intents updateBalances_intents)
  | _ => exact .inl rfl

/-- What a committed transaction does to a stored status. -/
theorem txBody_status {t : Tx} {r : t.Reply} {w w' : World} (id : Uuid)
    (hx : Call.exec (execStmt ar) (t.body ar) w = (.ok r, w')) :
    w'.status id = w.status id ∨ w.status id = none ∨
      ∃ st, w'.status id = some st ∧ ((Act.tx t).blind = some (id, st) ∨
        (Act.tx t).checked = some (id, st) ∧
          ∃ st₀, w.status id = some st₀ ∧ st₀.amendable = true) := by
  cases t with
  | create a s x now i =>
    obtain ⟨-, w₁, t, hm, hins, rfl⟩ := createBody_ok (Call.exec_mapErr_ok.1 hx)
    exact (World.status_insert hins).imp_right .inl
  | release id' a s x now st =>
    obtain ⟨w₁, hm, rfl⟩ := releaseBody_ok (Call.exec_mapErr_ok.1 hx)
    have hsame : w₁.status id = w.status id := World.status_of_intents (by rw [hm.frame])
    rcases w₁.status_setStatus id' id st with hs | ⟨rfl, hs⟩
    · exact .inl (hs.trans hsame)
    · exact .inr (.inr ⟨st, hs, .inl rfl⟩)
  | amend id' a x y p now =>
    obtain ⟨i, s, w₁, log, minOut, price, hi, hst, -, ⟨-, hm⟩, rfl⟩ :=
      amendBody_ok (Call.exec_mapErr_ok.1 hx)
    have hsame : World.status { w₁ with intentAmendments := log } id = w.status id :=
      World.status_of_intents (by rw [hm.frame])
    rcases World.status_amendRow { w₁ with intentAmendments := log } id' id (i.newAmount x) minOut
      price with hs | ⟨rfl, hs⟩
    · exact .inl (hs.trans hsame)
    · exact .inr (.inr ⟨_, hs, .inr ⟨rfl, i.status, by simp [World.status, hi], hst⟩⟩)
  | expire j now =>
    rcases expireBody_ok (Call.exec_mapErr_ok.1 hx) with
      ⟨-, rfl⟩ | ⟨i, w₁, hi, hst, hmove, hstay, rfl⟩
    · exact .inl rfl
    have hsame : w₁.status id = w.status id := by
      rcases hc : w.expiryCell j with _ | k
      · rw [hstay hc]
      · exact World.status_of_intents (by rw [(hmove k hc).frame])
    rcases w₁.status_setStatus j.id id .Expired with hs | ⟨rfl, hs⟩
    · exact .inl (hs.trans hsame)
    · exact .inr (.inr ⟨_, hs, .inr ⟨rfl, i.status, by simp [World.status, hi], hst⟩⟩)

/-- **What an act does to a stored status**: nothing, or it inserts the row, or it writes a status
blindly, or it writes one after finding the intent open or bidding. -/
theorem execAct_status (ar : Arith) (bus : Bus) (o : Act) (w : World) (id : Uuid) :
    (execAct ar bus o w).2.status id = w.status id ∨ w.status id = none ∨
      ∃ st, (execAct ar bus o w).2.status id = some st ∧
        (o.blind = some (id, st) ∨ o.checked = some (id, st) ∧
          ∃ st₀, w.status id = some st₀ ∧ st₀.amendable = true) := by
  cases o with
  | sql o =>
    rcases execStmt_status ar o w id with hsame | hnone | ⟨st, hb, hst⟩
    · exact .inl hsame
    · exact .inr (.inl hnone)
    · exact .inr (.inr ⟨st, hst, .inl hb⟩)
  | publish e =>
    obtain ⟨l, hl⟩ := execAct_publish ar bus w e
    rw [hl]
    exact .inl rfl
  | stream e =>
    obtain ⟨l, hl⟩ := execAct_stream ar bus w e
    rw [hl]
    exact .inl rfl
  | tx t =>
    simp only [execAct]
    rcases Call.transaction_cases (h := execStmt ar) (t.body ar) w with ⟨r, w', hx, ht⟩ | ⟨e, ht⟩
    case inr => rw [ht]; exact .inl rfl
    rw [ht]
    exact txBody_status id hx

end Status

/-! ## The tasks -/

/-- The tasks that write the status of an intent, with their arguments. -/
inductive Worker where
  | runAuction (env : Env) (intentId : Uuid)
  | closeAuction (env : Env) (intentId : Uuid)
  | executeFills (env : Env) (intentId : Uuid)
  | updateIntentStatus (intentId : Uuid)
  | expireIntent (env : Env) (intent : Intent)
  | cancelIntent (env : Env) (intentId accountId : Uuid)
  | failIntent (env : Env) (intentId accountId : Uuid)
  | amendIntent (env : Env) (intentId accountId : Uuid) (newAmountIn newMinAmountOut : Option UInt64)
      (newLimitPrice : Option Int)
  | checkStopOrders (env : Env)
  | finalizeCompleted

/-- A task as a program of the pool, which has no use for its answer. -/
def inPool {E α : Type} (t : Task E α) : Prog Act Act.Reply ActError Unit :=
  t.run >>= fun _ => .ret ()

def Worker.task : Worker → Prog Act Act.Reply ActError Unit
  | .runAuction env id => inPool (IntentX.runAuction env id)
  | .closeAuction env id => inPool (IntentX.closeAuction env id)
  | .executeFills env id => inPool (IntentX.executeFills env id)
  | .updateIntentStatus id => inPool (IntentX.updateIntentStatus id)
  | .expireIntent env i => inPool (IntentX.expireIntent env i)
  | .cancelIntent env id a => inPool (IntentX.cancelIntent env id a)
  | .failIntent env id a => inPool (IntentX.failIntent env id a)
  | .amendIntent env id a x y p => inPool (IntentX.amendIntent env id a x y p)
  | .checkStopOrders env => inPool (IntentX.checkStopOrders env)
  | .finalizeCompleted => inPool IntentX.finalizeCompleted

/-- A database and the tasks that are going to run on it. -/
def workers {ι : Type} (ws : ι → Worker) (w : World) : Pool Act Act.Reply ActError World ι :=
  ⟨w, fun i => (ws i).task⟩

/-! ## Live views -/

def World.live (w : World) (id : Uuid) : Bool := (w.status id).any fun st => !st.terminal

/-- The act reads the row of the intent. -/
def Act.reads (w : World) (id : Uuid) : Act → Bool
  | .sql (.selectIntent id') => id' == id
  | .sql (.selectIntentAmount id') => id' == id
  | .sql .selectStops => w.pendingStops.any fun i => i.id == id
  | .sql .selectFinalizable => w.finalizable.any fun x => x.2 == id
  | _ => false

/-- On the database `w` the act changes the stored status of the intent. -/
def Act.changes (ar : Arith) (w : World) (id : Uuid) (o : Act) : Bool :=
  !((execAct ar upBus o w).2.status id == w.status id)

/-- On the database `w` the act writes a terminal status of the intent, and that status is stored. -/
def Act.closes (ar : Arith) (w : World) (id : Uuid) (o : Act) : Bool :=
  (o.blind.or o.checked).any fun x =>
    x.1 == id && x.2.terminal && (execAct ar upBus o w).2.status id == some x.2

/-- What is stored does not depend on whether events get through. -/
theorem execAct_status_bus (ar : Arith) (bus bus' : Bus) (o : Act) (w : World) (id : Uuid) :
    (execAct ar bus o w).2.status id = (execAct ar bus' o w).2.status id := by
  cases o with
  | sql | tx => rfl
  | publish e =>
    obtain ⟨l, hl⟩ := execAct_publish ar bus w e
    obtain ⟨l', hl'⟩ := execAct_publish ar bus' w e
    rw [hl, hl']
    rfl
  | stream e =>
    obtain ⟨l, hl⟩ := execAct_stream ar bus w e
    obtain ⟨l', hl'⟩ := execAct_stream ar bus' w e
    rw [hl, hl']
    rfl

section History

variable {ι : Type} [DecidableEq ι] (ar : Arith)

/-- Task `i` has read the intent and found it live, and no terminal status was stored since.  The
newest act stands first. -/
def liveView (i : ι) (id : Uuid) : List (Done Act World ι) → Bool
  | [] => false
  | d :: l => !d.op.closes ar d.store id &&
      (liveView i id l || (decide (d.task = i) && d.op.reads d.store id && d.store.live id))

/-- Every blind write that changed the status of an intent was made with a live view of it. -/
def writesLive : List (Done Act World ι) → Bool
  | [] => true
  | d :: l =>
    (d.op.blind.all fun x => !d.op.changes ar d.store x.1 || liveView ar d.task x.1 l) && writesLive l

variable {ar : Arith} {bus : Bus} {w : World} {id : Uuid} {st : IntentStatus} {o : Act}

/-- A terminal status stays, if a blind write only changes a live intent. -/
theorem execAct_terminal (hst : w.status id = some st) (ht : st.terminal = true)
    (hblind : ∀ st', o.blind = some (id, st') → o.changes ar w id = true → w.live id = true) :
    (execAct ar bus o w).2.status id = some st := by
  rcases execAct_status ar bus o w id with
    hsame | hnone | ⟨st', -, hb | ⟨-, st₀, h₀, ham⟩⟩
  · rw [hsame, hst]
  · rw [hst] at hnone
    cases hnone
  · by_cases hch : o.changes ar w id = true
    · have hlive := hblind st' hb hch
      simp [World.live, hst, ht] at hlive
    · rw [execAct_status_bus ar bus upBus, ← hst]
      simpa [Act.changes] using hch
  · rw [hst] at h₀
    cases h₀
    rw [not_terminal_of_amendable ham] at ht
    cases ht

/-- A live intent stays live, if the act does not close it. -/
theorem execAct_live (hl : w.live id = true) (hc : o.closes ar w id = false) :
    (execAct ar bus o w).2.live id = true := by
  unfold World.live at hl ⊢
  rcases execAct_status ar bus o w id with
    hsame | hnone | ⟨st', hnew, hw⟩
  · rwa [hsame]
  · rw [hnone] at hl
    cases hl
  · have hup : (execAct ar upBus o w).2.status id = some st' := by
      rw [execAct_status_bus ar upBus bus, hnew]
    have hterm : st'.terminal = false := by
      rcases hw with hb | ⟨hck, st₀, -, -⟩
      · simpa [Act.closes, hb, hup] using hc
      · cases o with
        | tx t =>
          cases t with
          | amend | expire => simpa [Act.closes, hck, Act.blind, hup] using hc
          | _ => cases hck
        | _ => cases hck
    rw [hnew]
    simp [hterm]

/-- What a run with live writes keeps: a status that was terminal is still there, and a live view
is a view of a live intent. -/
structure Kept (ar : Arith) (l : List (Done Act World ι)) (w : World) : Prop where
  terminal : ∀ d ∈ l, ∀ id st, d.store.status id = some st → st.terminal = true →
    w.status id = some st
  live : ∀ i id, liveView ar i id l = true → w.live id = true

theorem Kept.step {l : List (Done Act World ι)} (h : Kept ar l w) (i : ι) (o : Act)
    (hblind : o.blind.all (fun x => !o.changes ar w x.1 || liveView ar i x.1 l) = true) :
    Kept ar (⟨i, o, w⟩ :: l) (execAct ar bus o w).2 := by
  have hview : ∀ id st, o.blind = some (id, st) → o.changes ar w id = true → w.live id = true := by
    intro id st hb hch
    simp only [hb, Option.all_some, hch, Bool.not_true, Bool.false_or] at hblind
    exact h.live i id hblind
  constructor
  · intro d hd id st hst ht
    have hnow : w.status id = some st := by
      rcases List.mem_cons.1 hd with rfl | hd
      · exact hst
      · exact h.terminal d hd id st hst ht
    exact execAct_terminal hnow ht fun st' hb => hview id st' hb
  · intro j id hl
    simp only [liveView, Bool.and_eq_true, Bool.or_eq_true, Bool.not_eq_true', decide_eq_true_eq]
      at hl
    obtain ⟨hc, hl | ⟨-, hlive⟩⟩ := hl
    · exact execAct_live (h.live j id hl) hc
    · exact execAct_live hlive hc

/-- **Terminal statuses stay.**  In any interleaving of the tasks in which every blind write that
changes a status is made with a live view, an intent that was found in a terminal status at some step
of the run still has that status at its end. -/
theorem terminal_status_stays (ar : Arith) (ws : ι → Worker) (w₀ : World)
    (l : List (Done Act World ι)) (p : Pool Act Act.Reply ActError World ι)
    (run : Pool.Run (execAct ar) (workers ws w₀) l p) (hlive : writesLive ar l = true) :
    ∀ d ∈ l, ∀ id st, d.store.status id = some st → st.terminal = true →
      p.store.status id = some st := by
  have hkept : Kept ar l p.store := by
    induction run with
    | start => exact ⟨fun _ hd => (nomatch hd), fun _ _ hv => (nomatch hv)⟩
    | step _ i n _ ih =>
      simp only [writesLive, Bool.and_eq_true] at hlive
      exact (ih hlive.2).step i _ hlive.1
  exact hkept.terminal

end History

/-- The auction of intent 1000, and its user who cancels it. -/
def auctionAndCancel : Bool → Worker
  | false => .runAuction demoEnv' 1000
  | true => .cancelIntent demoEnv 1000 2

/-- The tasks take their turns in the given order, on the database with the intent open. -/
def auctionRun (order : List Bool) :
    List (Done Act World Bool) × Pool Act Act.Reply ActError World Bool :=
  Pool.play (execAct .release) (order.map fun i => (i, upBus))
    ([], workers auctionAndCancel createdLocks.world)

theorem auctionRun_run (order : List Bool) :
    Pool.Run (execAct .release) (workers auctionAndCancel createdLocks.world) (auctionRun order).1
      (auctionRun order).2 := by
  apply Pool.Run.play
  exact .start

/-- The auction opens the bidding, the user cancels, the auction goes on to the bids. -/
theorem cancelled_after_bidding_stays :
    (auctionRun [false, false, false, true, true, false]).2.store.status 1000 = some .Cancelled := by
  have hseen : (auctionRun [false, false, false, true, true, false]).1.any
      (fun d => d.store.status 1000 == some .Cancelled) = true := by decide +kernel
  obtain ⟨d, hd, hst⟩ := List.any_eq_true.1 hseen
  exact terminal_status_stays .release auctionAndCancel createdLocks.world _ _ (auctionRun_run _)
    (by decide +kernel) d hd 1000 .Cancelled (eq_of_beq hst) rfl

/-- The auction reads the intent, the user cancels it, and the auction writes `Bidding` over
`Cancelled`. -/
theorem cancelled_before_bidding_reopened :
    ¬ ∀ (ws : Bool → Worker) (w₀ : World) (l : List (Done Act World Bool))
      (p : Pool Act Act.Reply ActError World Bool),
      Pool.Run (execAct .release) (workers ws w₀) l p →
      ∀ d ∈ l, ∀ id st, d.store.status id = some st → st.terminal = true →
        p.store.status id = some st := by
  intro h
  have hseen : (auctionRun [false, true, true, false]).1.any
      (fun d => d.store.status 1000 == some .Cancelled) = true := by decide +kernel
  obtain ⟨d, hd, hst⟩ := List.any_eq_true.1 hseen
  have hend := h auctionAndCancel createdLocks.world _ _ (auctionRun_run _) d hd 1000 .Cancelled
    (eq_of_beq hst) rfl
  revert hend
  decide +kernel

end IntentX
