import IntentX.Lib.Rely
import IntentX.MinOutput
import IntentX.Terminal
import Mathlib.Algebra.Order.BigOperators.Group.List

/-!
# No overfill

An auction fills no more than the amount of the intent that it read.  It does not look at the fills
that are already there, and the intent can be amended after it has been read; so several auctions
of one intent, or an amendment at the wrong time, fill an intent beyond its amount.

The tasks run side by side, one act at a time, and between two acts anything may happen that
changes neither amounts nor fills (`Meanwhile`): bids come in, fills are settled.  Of the history of
a run, `readAmount i id` is the amount task `i` has last read, and `ownFilled i id` what it has
filled since.  If every insertion of a fill leaves room for all that its auction may still fill, and
no amendment goes below what is filled, no intent is overfilled (`no_overfill`).
-/

namespace IntentX

open Lib

/-- The amount of an intent. -/
def World.amount (w : World) (id : Uuid) : Option Int := (w.intent id).map (·.amountIn)

/-- `SUM(filled_qty)` over all fills of an intent. -/
def World.filled (w : World) (id : Uuid) : Int :=
  w.fills.sum fun f => if f.intentId = id then f.filledQty else 0

/-! ## What an act does to amounts and fills -/

/-- The amounts of the intents and what is filled of them are the same. -/
structure SameAmounts (w w' : World) : Prop where
  amount : ∀ id, w'.amount id = w.amount id
  filled : ∀ id, w'.filled id = w.filled id

/-- Statements that tasks issue only inside a transaction, and the insertion of fills. -/
def Act.plain : Act → Bool
  | .sql (.insertFill _) | .sql (.insertIntent _) | .sql (.amendIntentRow ..) => false
  | _ => true

section Effect

variable {ar : Arith} {bus : Bus} {w w₁ w' : World} {id : Uuid}

theorem SameAmounts.refl (w : World) : SameAmounts w w := ⟨fun _ => rfl, fun _ => rfl⟩

theorem SameAmounts.trans (h : SameAmounts w w₁) (h' : SameAmounts w₁ w') : SameAmounts w w' :=
  ⟨fun id => (h'.amount id).trans (h.amount id), fun id => (h'.filled id).trans (h.filled id)⟩

theorem SameAmounts.of_eq (hi : w'.intents = w.intents) (hf : w'.fills = w.fills) :
    SameAmounts w w' := by
  constructor <;> intro id
  · unfold World.amount World.intent
    rw [hi]
  · unfold World.filled
    rw [hf]

/-- An update of intents that keeps their amounts. -/
theorem SameAmounts.of_intents {p : Intent → Bool} {f : Intent → Intent}
    (hw : w'.intents.rows = w.intents.rows.map fun i => if p i then f i else i)
    (hf : ∀ i, (f i).id = i.id ∧ (f i).amountIn = i.amountIn) (hfills : w'.fills = w.fills) :
    SameAmounts w w' := by
  have hupd : w'.intents = w.intents.update p f fun i => ⟨(hf i).1, (hf i).1⟩ := Table.ext hw
  constructor <;> intro id
  · unfold World.amount World.intent
    rw [hupd, Table.find_update_pk]
    cases w.intents.find (fun i => decide (i.id = id)) with
    | none => rfl
    | some i =>
      simp only [Option.map_some, Option.some.injEq]
      split
      · exact (hf i).2
      · rfl
  · unfold World.filled
    rw [hfills]

theorem SameAmounts.markFill (w : World) (id : Uuid) (now : Int) : SameAmounts w (w.markFill id now) := by
  refine ⟨fun _ => rfl, fun id' => ?_⟩
  unfold World.filled World.markFill
  rw [Table.sum_update]
  have hzero : (w.fills.sum fun f => if decide (f.id = id) = true then
      (if f.intentId = id' then f.filledQty else 0) - (if f.intentId = id' then f.filledQty else 0)
      else 0) = 0 := Table.sum_eq_zero fun f _ => by simp
  rw [hzero, add_zero]

theorem SameAmounts.setStatus (w : World) (id : Uuid) (st : IntentStatus) :
    SameAmounts w (w.setStatus id st) :=
  .of_intents rfl (fun _ => ⟨rfl, rfl⟩) rfl

theorem SameAmounts.moves {k : Cell} {da dl : Int} (h : Moves k da dl w w') : SameAmounts w w' := by
  rw [h.frame]
  exact .of_eq rfl rfl

theorem SameAmounts.updateBalances {p : Balance → Bool} {f : Balance → Balance} {hf} :
    SameAmounts w (w.updateBalances ar p f hf).2 := by
  unfold World.updateBalances
  split
  · exact .of_eq rfl rfl
  · exact .refl w

theorem SameAmounts.inserted {τ : Type} {set : τ → World} {t : Option τ}
    (h : ∀ x, SameAmounts w (set x)) : SameAmounts w (inserted w set t).2 := by
  cases t with
  | none => exact .refl w
  | some x => exact h x

theorem execStmt_same (o : Stmt) (ho : (Act.sql o).plain = true) :
    SameAmounts w (execStmt ar o w).2 := by
  cases o with
  | insertFill | insertIntent | amendIntentRow => cases ho
  | setIntentStatus id st => exact .setStatus w id st
  | triggerStop id ty now => exact .of_intents rfl (fun _ => ⟨rfl, rfl⟩) rfl
  | completeIntent id => exact .of_intents rfl (fun _ => ⟨rfl, rfl⟩) rfl
  | markFillSettled id now => exact .markFill w id now
  | insertBalance b =>
    simp only [execStmt]
    split
    · exact .inserted fun _ => .of_eq rfl rfl
    · exact .refl w
  | insertExecution e => exact .inserted fun _ => .of_eq rfl rfl
  | unlockAndDebit | lockFunds | unlockFunds | unlockFundsIfLocked => exact .updateBalances
  | _ => exact .of_eq rfl rfl

/-- What an act can do to amounts and fills: nothing, or it inserts a fill, creates an intent or
amends one. -/
inductive FillEffect (o : Act) (w w' : World) : Prop
  | same (h : SameAmounts w w')
  | filled (f : Fill) (ho : o = .sql (.insertFill f)) (amount : ∀ id, w'.amount id = w.amount id)
      (filled : ∀ id, w'.filled id = w.filled id + if f.intentId = id then f.filledQty else 0)
  | created (a : Uuid) (s : Asset) (x now : Int) (i : Intent) (ho : o = .tx (.create a s x now i))
      (free : w.amount i.id = none)
      (amount : ∀ id, w'.amount id = if id = i.id then some i.amountIn else w.amount id)
      (filled : ∀ id, w'.filled id = w.filled id)
  | amended (id a : Uuid) (x y : Option UInt64) (p : Option Int) (now : Int) (cur : Intent)
      (ho : o = .tx (.amend id a x y p now)) (hcur : w.intent id = some cur)
      (hst : cur.status.amendable = true)
      (amount : ∀ id', w'.amount id' = if id' = id then some (cur.newAmount x) else w.amount id')
      (filled : ∀ id', w'.filled id' = w.filled id')

/-- The effect on other tables does not matter. -/
theorem FillEffect.after {o : Act} (h : FillEffect o w₁ w') (hsame : SameAmounts w w₁)
    (hint : w₁.intents = w.intents) : FillEffect o w w' := by
  have hid : ∀ id, w₁.intent id = w.intent id := fun id => by unfold World.intent; rw [hint]
  cases h with
  | same h => exact .same (hsame.trans h)
  | filled f ho amount filled =>
    refine .filled f ho (fun id => (amount id).trans (hsame.amount id)) fun id => ?_
    rw [filled, hsame.filled]
  | created a s x now i ho free amount filled =>
    refine .created a s x now i ho ((hsame.amount _).symm.trans free) (fun id => ?_)
      fun id => (filled id).trans (hsame.filled id)
    rw [amount, hsame.amount]
  | amended id a x y p now cur ho hcur hst amount filled =>
    refine .amended id a x y p now cur ho ((hid id).symm.trans hcur) hst (fun id' => ?_)
      fun id' => (filled id').trans (hsame.filled id')
    rw [amount, hsame.amount]

theorem insertFill_effect (f : Fill) :
    FillEffect (.sql (.insertFill f)) w (execStmt ar (.insertFill f) w).2 := by
  simp only [execStmt]
  rcases ht : w.fills.insert f with _ | t
  · exact .same (.refl w)
  · refine .filled f rfl (fun _ => rfl) fun id => ?_
    show t.sum _ = _
    rw [Table.sum_insert ht]
    rfl

theorem create_effect {a : Uuid} {s : Asset} {x now : Int} {i : Intent} {t}
    (ht : w.intents.insert i = some t) :
    FillEffect (.tx (.create a s x now i)) w { w with intents := t } := by
  refine .created a s x now i rfl ?_ (fun id => ?_) fun _ => rfl
  · have hfree := Table.insert_isSome_iff.1 (Option.isSome_of_eq_some ht)
    have hnone : w.intent i.id = none := Table.find_pk_none.2 fun r hr => (hfree r hr).1
    simp [World.amount, hnone]
  · have hfind : World.intent { w with intents := t } id = if id = i.id then some i else w.intent id :=
      Table.find_insert_pk ht id
    unfold World.amount
    rw [hfind]
    split <;> rfl

theorem amend_effect {a : Uuid} {x y : Option UInt64} {p : Option Int} {now minOut : Int}
    {price : Option Int} {cur : Intent} (hcur : w.intent id = some cur)
    (hst : cur.status.amendable = true) :
    FillEffect (.tx (.amend id a x y p now)) w (w.amendRow id (cur.newAmount x) minOut price) := by
  refine .amended id a x y p now cur rfl hcur hst (fun id' => ?_) fun _ => rfl
  unfold World.amount World.intent World.amendRow
  rw [Table.find_update_pk]
  show ((w.intent id').map _).map _ = if id' = id then _ else (w.intent id').map _
  split
  · next hid =>
    subst hid
    rw [hcur]
    simp [(World.intent_some_iff.1 hcur).2, Intent.amended]
  · next hid =>
    rcases hi : w.intent id' with _ | i
    · rfl
    · have hne : i.id ≠ id := fun he => hid ((World.intent_some_iff.1 hi).2.symm.trans he)
      simp [hne]

theorem txBody_effect {t : Tx} {r : t.Reply} (hx : Call.exec (execStmt ar) (t.body ar) w = (.ok r, w')) :
    FillEffect (.tx t) w w' := by
  cases t with
  | create a s x now i =>
    obtain ⟨-, w₁, t, hm, hins, rfl⟩ := createBody_ok (Call.exec_mapErr_ok.1 hx)
    have hint : w₁.intents = w.intents := by rw [hm.frame]
    rw [← hint] at hins
    exact (create_effect hins).after (.moves hm) hint
  | release id' a s x now st =>
    obtain ⟨w₁, hm, rfl⟩ := releaseBody_ok (Call.exec_mapErr_ok.1 hx)
    exact .same ((SameAmounts.moves hm).trans (.setStatus w₁ id' st))
  | amend id' a x y p now =>
    obtain ⟨i, s, w₁, log, minOut, price, hi, hst, -, ⟨-, hm⟩, rfl⟩ :=
      amendBody_ok (Call.exec_mapErr_ok.1 hx)
    have hint : World.intents { w₁ with intentAmendments := log } = w.intents := by rw [hm.frame]
    have hsame : SameAmounts w { w₁ with intentAmendments := log } :=
      (SameAmounts.moves hm).trans (.of_eq rfl rfl)
    refine (amend_effect ?_ hst).after hsame hint
    unfold World.intent at hi ⊢
    rwa [hint]
  | expire j now =>
    rcases expireBody_ok (Call.exec_mapErr_ok.1 hx) with
      ⟨-, rfl⟩ | ⟨i, w₁, hi, hst, hmove, hstay, rfl⟩
    · exact .same (.refl _)
    · have hsame : SameAmounts w w₁ := by
        rcases hc : w.expiryCell j with _ | k
        · rw [hstay hc]
          exact .refl w
        · exact .moves (hmove k hc)
      exact .same (hsame.trans (.setStatus w₁ j.id .Expired))

theorem execAct_effect (ar : Arith) (bus : Bus) (w : World) {o : Act}
    (ho : o.plain = true ∨ ∃ f, o = .sql (.insertFill f)) :
    FillEffect o w (execAct ar bus o w).2 := by
  cases o with
  | sql o =>
    rcases ho with ho | ⟨f, ho⟩
    · exact .same (execStmt_same o ho)
    · cases ho
      exact insertFill_effect f
  | publish e =>
    obtain ⟨l, hl⟩ := execAct_publish ar bus w e
    rw [hl]
    exact .same (.of_eq rfl rfl)
  | stream e =>
    obtain ⟨l, hl⟩ := execAct_stream ar bus w e
    rw [hl]
    exact .same (.of_eq rfl rfl)
  | tx t =>
    simp only [execAct]
    rcases Call.transaction_cases (h := execStmt ar) (t.body ar) w with ⟨r, w', hx, ht⟩ | ⟨e, ht⟩
    · rw [ht]
      exact txBody_effect hx
    · rw [ht]
      exact .same (.refl w)

end Effect

/-! ## The tasks -/

/-- The tasks that fill, create and amend intents, and those that only write their status. -/
inductive FillTask where
  | worker (w : Worker)
  | createIntent (env : Env) (view : RiskView) (userId : String) (accountId : Uuid)
      (tokenIn tokenOut : String) (amountIn minAmountOut : UInt64) (deadline : Int)

def FillTask.task : FillTask → Prog Act Act.Reply ActError Unit
  | .worker w => w.task
  | .createIntent env view u a x y amountIn minAmountOut deadline =>
    inPool (IntentX.createIntent env view u a x y amountIn minAmountOut deadline)

/-- What happens at an act and until the next one: how Redis answers, and what the rest of the
system does, which touches neither amounts nor fills. -/
structure Meanwhile where
  bus : Bus
  change : World → World
  same : ∀ w, SameAmounts w (change w)

def execMeanwhile (ar : Arith) (n : Meanwhile) (o : Act) (w : World) :
    Except ActError o.Reply × World :=
  ((execAct ar n.bus o w).1, n.change (execAct ar n.bus o w).2)

theorem execMeanwhile_effect (ar : Arith) (n : Meanwhile) (w : World) {o : Act}
    (ho : o.plain = true ∨ ∃ f, o = .sql (.insertFill f)) :
    FillEffect o w (execMeanwhile ar n o w).2 := by
  have hsame := n.same (execAct ar n.bus o w).2
  have hw : (execMeanwhile ar n o w).2 = n.change (execAct ar n.bus o w).2 := rfl
  rw [← hw] at hsame
  cases execAct_effect ar n.bus w ho with
  | same h => exact .same (h.trans hsame)
  | filled f ho amount filled =>
    refine .filled f ho (fun id => (hsame.amount id).trans (amount id)) fun id => ?_
    rw [hsame.filled, filled]
  | created a s x now i ho free amount filled =>
    exact .created a s x now i ho free (fun id => (hsame.amount id).trans (amount id))
      fun id => (hsame.filled id).trans (filled id)
  | amended id a x y p now cur ho hcur hst amount filled =>
    exact .amended id a x y p now cur ho hcur hst (fun id' => (hsame.amount id').trans (amount id'))
      fun id' => (hsame.filled id').trans (filled id')

/-- A database and the tasks that are going to run on it. -/
def fillTasks {ι : Type} (ts : ι → FillTask) (w : World) : Pool Act Act.Reply ActError World ι :=
  ⟨w, fun i => (ts i).task⟩

/-! ## Tasks that do not fill -/

section Plain

variable {E : Type}

theorem getIntent_plain (id : Uuid) :
    Call.Issues (fun o => o.plain = true) (getIntent id : Task E (Option Intent)) :=
  Call.issues_bind (Call.issues_attempt rfl) fun _ => Call.issues_pure _

theorem getBids_plain (id : Uuid) :
    Call.Issues (fun o => o.plain = true) (getBids id : Task E (List SolverBid)) :=
  Call.issues_bind (Call.issues_attempt rfl) fun _ => Call.issues_pure _

theorem tryStatus_plain (id : Uuid) (st : IntentStatus) :
    Call.Issues (fun o => o.plain = true) (tryStatus id st : Task E Unit) :=
  Call.issues_bind (Call.issues_attempt rfl) fun _ => Call.issues_pure _

theorem createIntent_plain (env : Env) (view : RiskView) (u : String) (a : Uuid) (x y : String)
    (amountIn minAmountOut : UInt64) (deadline : Int) : Call.Issues (fun o => o.plain = true)
      (createIntent env view u a x y amountIn minAmountOut deadline) := by
  unfold createIntent
  split
  · exact Call.issues_throw _
  · refine Call.issues_bind Call.issues_orThrow fun _ => ?_
    refine Call.issues_bind (Call.issues_op rfl) fun _ => ?_
    refine Call.issues_bind (Call.issues_op rfl) fun _ => ?_
    exact Call.issues_bind (Call.issues_attempt rfl) fun _ => Call.issues_pure _

theorem closeIntent_plain (env : Env) (st : IntentStatus) (event : Intent → Event) (id a : Uuid) :
    Call.Issues (fun o => o.plain = true) (closeIntent env st event id a) := by
  refine Call.issues_bind (getIntent_plain id) fun row => ?_
  cases row with
  | none => exact Call.issues_pure _
  | some intent =>
    refine Call.issues_bind Call.issues_orThrow fun _ => ?_
    refine Call.issues_bind (Call.issues_op rfl) fun _ => ?_
    exact Call.issues_bind (Call.issues_op rfl) fun _ => Call.issues_pure _

theorem amendIntent_plain (env : Env) (id a : Uuid) (x y : Option UInt64) (p : Option Int) :
    Call.Issues (fun o => o.plain = true) (amendIntent env id a x y p) := by
  refine Call.issues_bind (Call.issues_op rfl) fun _ => ?_
  refine Call.issues_bind (getIntent_plain id) fun _ => ?_
  refine Call.issues_bind Call.issues_orThrow fun _ => ?_
  exact Call.issues_bind (Call.issues_op rfl) fun _ => Call.issues_pure _

theorem expireIntent_plain (env : Env) (i : Intent) :
    Call.Issues (fun o => o.plain = true) (expireIntent env i) := by
  refine Call.issues_bind (Call.issues_op rfl) fun _ => Call.issues_doIf ?_
  refine Call.issues_bind (Call.issues_attempt rfl) fun _ => ?_
  exact Call.issues_bind (Call.issues_attempt rfl) fun _ => Call.issues_pure _

theorem executeLoop_plain (env : Env) (i : Intent) (a : Uuid) (fills : List Fill) :
    Call.Issues (fun o => o.plain = true) (executeLoop env i a fills) := by
  induction fills generalizing env with
  | nil => exact Call.issues_pure _
  | cons fill fills ih =>
    refine Call.issues_bind ?_ fun _ => ih _
    refine Call.issues_bind (Call.issues_attempt rfl) fun _ => ?_
    refine Call.issues_bind (Call.issues_op rfl) fun _ => ?_
    refine Call.issues_bind (Call.issues_attempt rfl) fun _ => ?_
    refine Call.issues_bind (Call.issues_op rfl) fun _ => ?_
    exact Call.issues_bind (Call.issues_attempt rfl) fun _ => Call.issues_pure _

theorem executeFills_plain (env : Env) (id : Uuid) :
    Call.Issues (fun o => o.plain = true) (executeFills env id) := by
  refine Call.issues_bind (Call.issues_attempt rfl) fun rows => ?_
  simp only
  split
  · exact Call.issues_pure _
  refine Call.issues_bind (getIntent_plain id) fun row => ?_
  cases row with
  | none => exact Call.issues_pure _
  | some intent =>
    refine Call.issues_bind (Call.issues_bind (Call.issues_attempt rfl) fun _ =>
      Call.issues_pure _) fun buyer => ?_
    refine Call.issues_bind (getIntent_plain id) fun row => ?_
    cases row with
    | none => exact executeLoop_plain env intent _ _
    | some i => exact Call.issues_bind (tryStatus_plain _ _) fun _ => executeLoop_plain env intent _ _

theorem updateIntentStatus_plain (id : Uuid) :
    Call.Issues (fun o => o.plain = true) (updateIntentStatus id) := by
  refine Call.issues_bind (Call.issues_attempt rfl) fun amount => ?_
  split
  · exact Call.issues_pure _
  refine Call.issues_bind (Call.issues_attempt rfl) fun row => ?_
  simp only
  split
  · exact Call.issues_pure _
  refine Call.issues_bind (tryStatus_plain _ _) fun _ => ?_
  exact Call.issues_bind (Call.issues_attempt rfl) fun _ => Call.issues_pure _

theorem checkStopLoop_plain (env : Env) (stops : List Intent) :
    Call.Issues (fun o => o.plain = true) (checkStopLoop env stops) := by
  induction stops generalizing env with
  | nil => exact Call.issues_pure _
  | cons intent stops ih =>
    refine Call.issues_bind (Call.issues_op rfl) fun price => ?_
    cases price with
    | none => exact ih _
    | some currentPrice =>
      refine Call.issues_bind (Call.issues_doIf ?_) fun _ => ih _
      refine Call.issues_bind (Call.issues_op rfl) fun rows => Call.issues_doIf ?_
      refine Call.issues_bind (Call.issues_attempt rfl) fun _ => ?_
      exact Call.issues_bind (Call.issues_attempt rfl) fun _ => Call.issues_pure _

theorem checkStopOrders_plain (env : Env) :
    Call.Issues (fun o => o.plain = true) (checkStopOrders env) :=
  Call.issues_bind (Call.issues_op rfl) fun _ => checkStopLoop_plain env _

theorem finalizeLoop_plain (rows : List (Uuid × Uuid)) :
    Call.Issues (fun o => o.plain = true) (finalizeLoop rows) := by
  induction rows with
  | nil => exact Call.issues_pure _
  | cons row rows ih =>
    refine Call.issues_bind (Call.issues_attempt rfl) fun _ => ?_
    exact Call.issues_bind ih fun _ => Call.issues_pure _

theorem finalizeCompleted_plain : Call.Issues (fun o => o.plain = true) finalizeCompleted :=
  Call.issues_bind (Call.issues_attempt rfl) fun _ => finalizeLoop_plain _

end Plain

/-! ## Histories -/

section History

variable {ι : Type} [DecidableEq ι]

/-- `SELECT * FROM intents WHERE id = $1` on the pool. -/
def Act.readsIntent (id : Uuid) : Act → Bool
  | .sql (.selectIntent id') => id' == id
  | _ => false

/-- What an act fills of an intent. -/
def Act.fillQty (id : Uuid) : Act → Int
  | .sql (.insertFill f) => if f.intentId = id then f.filledQty else 0
  | _ => 0

/-- The amount of the intent when task `i` has last read it.  The newest act stands first. -/
def readAmount (i : ι) (id : Uuid) : List (Done Act World ι) → Int
  | [] => 0
  | d :: l =>
    if d.task = i ∧ d.op.readsIntent id = true then (d.store.amount id).getD 0 else readAmount i id l

/-- What task `i` has filled since. -/
def ownFilled (i : ι) (id : Uuid) : List (Done Act World ι) → Int
  | [] => 0
  | d :: l =>
    if d.task = i then
      if d.op.readsIntent id then 0 else d.op.fillQty id + ownFilled i id l
    else ownFilled i id l

/-- There is room for the act: next to the fills that others have made, the amount an auction has
read is still within the amount of the intent when it inserts a fill; an intent is not created with
a negative amount; and it is not amended below what is filled. -/
def hasRoom (i : ι) (l : List (Done Act World ι)) (w : World) : Act → Bool
  | .sql (.insertFill f) => (w.amount f.intentId).all fun x =>
      decide (w.filled f.intentId - ownFilled i f.intentId l + readAmount i f.intentId l ≤ x)
  | .tx (.create _ _ _ _ i) => decide (0 ≤ i.amountIn)
  | .tx (.amend id _ y _ _ _) => (w.intent id).all fun cur =>
      !cur.status.amendable || decide (w.filled id ≤ cur.newAmount y)
  | _ => true

/-- There was room for every act of the history. -/
def roomy : List (Done Act World ι) → Bool
  | [] => true
  | d :: l => hasRoom d.task l d.store d.op && roomy l

theorem readAmount_idle {i : ι} {id : Uuid} {x y : Trace Act World ι} (h : x.Idle i y) :
    readAmount i id y.1 = readAmount i id x.1 := by
  apply h.reading
  intro d l hd
  rw [readAmount, if_neg fun hmine => hd hmine.1]

theorem ownFilled_idle {i : ι} {id : Uuid} {x y : Trace Act World ι} (h : x.Idle i y) :
    ownFilled i id y.1 = ownFilled i id x.1 := by
  apply h.reading
  intro d l hd
  rw [ownFilled, if_neg hd]

end History

/-! ## The protocol -/

/-- No intent is filled beyond its amount, and what has no intent is not filled. -/
structure Covered (w : World) : Prop where
  within : ∀ id x, w.amount id = some x → w.filled id ≤ x
  homed : ∀ id, w.amount id = none → w.filled id = 0

section Protocol

variable {ι : Type} [DecidableEq ι] {ar : Arith}

/-- What an auction keeps to when it inserts a fill: the intent is there, and the fills are within
the amount it has read. -/
def mayFill (i : ι) (x : Trace Act World ι) : Act → Prop
  | .sql (.insertFill f) => x.2.amount f.intentId ≠ none ∧
      ownFilled i f.intentId x.1 + f.filledQty ≤ readAmount i f.intentId x.1
  | o => o.plain = true

theorem mayFill_cases {i : ι} {x : Trace Act World ι} {o : Act} (h : mayFill i x o) :
    o.plain = true ∨ ∃ f, o = .sql (.insertFill f) := by
  unfold mayFill at h
  split at h
  · exact .inr ⟨_, rfl⟩
  · exact .inl h

/-- No intent has gone. -/
def Homes (w w' : World) : Prop := ∀ id, w.amount id ≠ none → w'.amount id ≠ none

theorem Covered.same {w w' : World} (h : Covered w) (hs : SameAmounts w w') :
    Covered w' ∧ Homes w w' := by
  refine ⟨⟨fun id a ha => ?_, fun id ha => ?_⟩, fun id hid => ?_⟩
  · rw [hs.filled]
    exact h.within id a ((hs.amount id).symm.trans ha)
  · rw [hs.filled]
    exact h.homed id ((hs.amount id).symm.trans ha)
  · rwa [hs.amount]

/-- A fill that fits is inserted. -/
theorem Covered.fill {w w' : World} {f : Fill} (h : Covered w) (hhome : w.amount f.intentId ≠ none)
    (hfits : ∀ x, w.amount f.intentId = some x → w.filled f.intentId + f.filledQty ≤ x)
    (amount : ∀ id, w'.amount id = w.amount id)
    (filled : ∀ id, w'.filled id = w.filled id + if f.intentId = id then f.filledQty else 0) :
    Covered w' ∧ Homes w w' := by
  refine ⟨⟨fun id x hx => ?_, fun id hx => ?_⟩, fun id hid => by rwa [amount]⟩
  · rw [amount] at hx
    rw [filled]
    split
    · next hid =>
      subst hid
      exact hfits x hx
    · rw [add_zero]
      exact h.within id x hx
  · rw [amount] at hx
    have hne : f.intentId ≠ id := fun hid => hhome (hid ▸ hx)
    rw [filled, if_neg hne, add_zero]
    exact h.homed id hx

/-- An intent gets an amount that covers its fills. -/
theorem Covered.setAmount {w w' : World} {id : Uuid} {x : Int} (h : Covered w)
    (hle : w.filled id ≤ x)
    (amount : ∀ id', w'.amount id' = if id' = id then some x else w.amount id')
    (filled : ∀ id', w'.filled id' = w.filled id') : Covered w' ∧ Homes w w' := by
  refine ⟨⟨fun id' y hy => ?_, fun id' hy => ?_⟩, fun id' hid => ?_⟩
  · rw [amount] at hy
    rw [filled]
    split at hy
    · next hid =>
      cases hy
      rw [hid]
      exact hle
    · exact h.within id' y hy
  · rw [amount] at hy
    rw [filled]
    split at hy
    · cases hy
    · exact h.homed id' hy
  · rw [amount]
    split
    · simp
    · exact hid

/-- **An act for which there is room leaves no intent overfilled.** -/
theorem Covered.step {i : ι} {x : Trace Act World ι} {o : Act} {n : Meanwhile} (h : Covered x.2)
    (hmay : mayFill i x o) (hroom : hasRoom i x.1 x.2 o = true) :
    Covered (execMeanwhile ar n o x.2).2 ∧ Homes x.2 (execMeanwhile ar n o x.2).2 := by
  cases execMeanwhile_effect ar n x.2 (mayFill_cases hmay) with
  | same hs => exact h.same hs
  | filled f ho amount filled =>
    subst ho
    obtain ⟨hhome, hown⟩ := hmay
    refine h.fill hhome (fun y hy => ?_) amount filled
    simp only [hasRoom, hy, Option.all_some, decide_eq_true_eq] at hroom
    omega
  | created a s y now j ho free amount filled =>
    subst ho
    simp only [hasRoom, decide_eq_true_eq] at hroom
    refine h.setAmount ?_ amount filled
    rw [h.homed _ free]
    exact hroom
  | amended id a y z p now cur ho hcur hst amount filled =>
    subst ho
    simp only [hasRoom, hcur, Option.all_some, hst, Bool.not_true, Bool.false_or,
      decide_eq_true_eq] at hroom
    exact h.setAmount hroom amount filled

def fillProtocol (ar : Arith) : Protocol (execMeanwhile ar) ι where
  inv x := Covered x.2
  rely x y := Homes x.2 y.2
  may := mayFill
  given i x o := hasRoom i x.1 x.2 o = true
  refl _ _ h := h
  trans h h' id hid := h' id (h id hid)
  step _ hinv hmay hroom := hinv.step hmay hroom

/-- A program that neither fills nor touches an intent outside a transaction. -/
theorem obeys_plain {α : Type} {i : ι} {p : Prog Act Act.Reply ActError α}
    (hp : p.Issues fun o => o.plain = true) : (fillProtocol ar).Obeys i p := by
  refine Protocol.obeys_of_issues (fun o ho y => ?_) hp
  show mayFill i y o
  unfold mayFill
  split
  · cases ho
  · exact ho

/-- **Inserting the fills of an auction.**  What is filled and what is left to fill are within the
amount that was read. -/
theorem insertFills_follows {i : ι} (id : Uuid) {fills : List Fill} {x : Trace Act World ι}
    (hf : ∀ f ∈ fills, f.intentId = id ∧ 0 < f.filledQty) (hid : x.2.amount id ≠ none)
    (hown : 0 ≤ ownFilled i id x.1)
    (htot : ownFilled i id x.1 + totalFilled fills ≤ max 0 (readAmount i id x.1)) :
    (fillProtocol ar).Follows i (fun _ _ => True) (insertFills fills : Task String Unit).run x := by
  induction fills generalizing x with
  | nil => exact Protocol.follows_pure trivial
  | cons f fills ih =>
    obtain ⟨hfid, hpos⟩ := hf f List.mem_cons_self
    have hrest : 0 ≤ totalFilled fills := by
      refine List.sum_nonneg fun q hq => ?_
      obtain ⟨g, hg, rfl⟩ := List.mem_map.1 hq
      exact (hf g (List.mem_cons_of_mem f hg)).2.le
    simp only [totalFilled, List.map_cons, List.sum_cons] at htot hrest
    refine Protocol.follows_bind_run (Protocol.follows_attempt fun y hr hidle hinv hroom => ?_)
    have hy : y.2.amount id ≠ none := hr id hid
    rw [← readAmount_idle hidle, ← ownFilled_idle hidle] at htot
    rw [← ownFilled_idle hidle] at hown
    have hmay : mayFill i y (.sql (.insertFill f)) := by
      rw [← hfid] at hy htot hown
      exact ⟨hy, by omega⟩
    refine ⟨hmay, fun n => ?_⟩
    have hnext : ownFilled i id (y.next (execMeanwhile ar) i n (.sql (.insertFill f))).1 =
        f.filledQty + ownFilled i id y.1 := by
      simp [Trace.next, ownFilled, Act.readsIntent, Act.fillQty, hfid]
    have hread : readAmount i id (y.next (execMeanwhile ar) i n (.sql (.insertFill f))).1 =
        readAmount i id y.1 := by
      simp [Trace.next, readAmount, Act.readsIntent]
    refine ih (fun g hg => hf g (List.mem_cons_of_mem f hg)) ((hinv.step hmay hroom).2 id hy) ?_ ?_
    · rw [hnext]
      omega
    · rw [hnext, hread]
      unfold totalFilled
      omega

theorem closeWith_follows {env : Env} {i : ι} {intent : Intent} {bids : List SolverBid}
    {x : Trace Act World ι} (hid : x.2.amount intent.id ≠ none)
    (hown : ownFilled i intent.id x.1 = 0) (hread : readAmount i intent.id x.1 = intent.amountIn) :
    (fillProtocol ar).Follows i (fun _ _ => True) (closeWith env intent bids).run x := by
  unfold closeWith
  split
  · exact obeys_plain (Call.issues_bind (Call.issues_bind (Call.issues_attempt rfl) fun _ =>
      Call.issues_pure _) fun _ => Call.issues_op rfl) x
  · obtain ⟨hpos, htot⟩ := totalFilled_fillLoop env intent.id intent.amountIn bids
    refine Protocol.follows_bind_run (Protocol.Follows.mono (insertFills_follows intent.id
      (fun f hf => ⟨fillLoop_intentId hf, (hpos f hf).1⟩) hid hown.ge ?_) fun r y _ => ?_)
    · rw [hown, hread, zero_add]
      exact htot
    · cases r with
      | error e => trivial
      | ok u =>
        refine obeys_plain (Call.issues_bind (Call.issues_bind (Call.issues_attempt rfl) fun _ =>
          Call.issues_pure _) fun _ => ?_) y
        split
        · exact Call.issues_op rfl
        · exact Call.issues_pure _

/-- An auction may be closed at any time: it starts by reading the intent. -/
theorem closeAuction_obeys (env : Env) (i : ι) (id : Uuid) :
    (fillProtocol ar).Obeys i (closeAuction env id).run := by
  intro x
  refine Protocol.follows_bind_run (Protocol.follows_bind_run
    (Protocol.follows_attempt fun y _ _ hinv _ => ⟨rfl, fun n => ?_⟩))
  show (fillProtocol ar).Follows i _ (pure (y.2.intent id) : Task String _).run _
  refine Protocol.follows_pure ?_
  rcases hi : y.2.intent id with _ | intent
  · exact Protocol.follows_pure trivial
  obtain ⟨-, rfl⟩ := World.intent_some_iff.1 hi
  have hamount : y.2.amount intent.id = some intent.amountIn := by simp [World.amount, hi]
  set y₁ := y.next (execMeanwhile ar) i n (.sql (.selectIntent intent.id)) with hy₁
  have hown₁ : ownFilled i intent.id y₁.1 = 0 := by
    simp [hy₁, Trace.next, ownFilled, Act.readsIntent]
  have hread₁ : readAmount i intent.id y₁.1 = intent.amountIn := by
    simp [hy₁, Trace.next, readAmount, Act.readsIntent, hamount]
  have hid₁ : y₁.2.amount intent.id ≠ none :=
    (hinv.step (i := i) (o := .sql (.selectIntent intent.id)) rfl rfl).2 _ (by simp [hamount])
  refine Protocol.follows_bind_run (Protocol.follows_bind_run
    (Protocol.follows_attempt fun z hr hidle hinv' _ => ⟨rfl, fun m => ?_⟩))
  refine Protocol.follows_pure (closeWith_follows ?_ ?_ ?_)
  · exact (hinv'.step (i := i) (o := .sql (.selectBids intent.id)) rfl rfl).2 _ (hr _ hid₁)
  · rw [← ownFilled_idle hidle] at hown₁
    simp [Trace.next, ownFilled, Act.readsIntent, Act.fillQty, hown₁]
  · rw [← readAmount_idle hidle] at hread₁
    simp [Trace.next, readAmount, Act.readsIntent, hread₁]

theorem obeys_inPool {E α : Type} {i : ι} {t : Task E α} (ht : (fillProtocol ar).Obeys i t.run) :
    (fillProtocol ar).Obeys i (inPool t) :=
  Protocol.obeys_bind ht fun _ => Protocol.obeys_ret _

theorem obeys_inPool_plain {E α : Type} {i : ι} {t : Task E α}
    (ht : Call.Issues (fun o => o.plain = true) t) : (fillProtocol ar).Obeys i (inPool t) :=
  obeys_inPool (obeys_plain ht)

theorem runAuction_obeys (env : Env) (i : ι) (id : Uuid) :
    (fillProtocol ar).Obeys i (runAuction env id).run := by
  have hclose : (fillProtocol ar).Obeys i
      (do let _ ← getBids (E := String) id; closeAuction env id : Task String Unit).run :=
    Protocol.obeys_bind_run (obeys_plain (getBids_plain id)) fun _ => closeAuction_obeys env i id
  refine Protocol.obeys_bind_run (obeys_plain (getIntent_plain id)) fun row => ?_
  cases row with
  | none => exact hclose
  | some intent =>
    refine Protocol.obeys_bind_run (obeys_plain (tryStatus_plain _ _)) fun _ => ?_
    exact Protocol.obeys_bind_run (obeys_plain (Call.issues_op rfl)) fun _ => hclose

/-- Every task keeps to the protocol. -/
theorem FillTask.obeys (i : ι) (t : FillTask) : (fillProtocol ar).Obeys i t.task := by
  cases t with
  | createIntent env view u a x y amountIn minAmountOut deadline =>
    exact obeys_inPool_plain (createIntent_plain ..)
  | worker w =>
    cases w with
    | runAuction env id => exact obeys_inPool (runAuction_obeys env i id)
    | closeAuction env id => exact obeys_inPool (closeAuction_obeys env i id)
    | executeFills env id => exact obeys_inPool_plain (executeFills_plain env id)
    | updateIntentStatus id => exact obeys_inPool_plain (updateIntentStatus_plain id)
    | expireIntent env j => exact obeys_inPool_plain (expireIntent_plain env j)
    | cancelIntent env id a => exact obeys_inPool_plain (closeIntent_plain ..)
    | failIntent env id a => exact obeys_inPool_plain (closeIntent_plain ..)
    | amendIntent env id a x y p => exact obeys_inPool_plain (amendIntent_plain ..)
    | checkStopOrders env => exact obeys_inPool_plain (checkStopOrders_plain env)
    | finalizeCompleted => exact obeys_inPool_plain finalizeCompleted_plain

theorem given_of_roomy {l : List (Done Act World ι)} (h : roomy l = true) :
    (fillProtocol ar).Given l := by
  induction l with
  | nil => trivial
  | cons d l ih =>
    simp only [roomy, Bool.and_eq_true] at h
    exact ⟨h.1, ih h.2⟩

/-- **No overfill.**  In any interleaving of the tasks in which there is room for every act, no
intent is ever filled beyond its amount. -/
theorem no_overfill (ar : Arith) (ts : ι → FillTask) (w₀ : World) (l : List (Done Act World ι))
    (p : Pool Act Act.Reply ActError World ι) (hstart : Covered w₀)
    (run : Pool.Run (execMeanwhile ar) (fillTasks ts w₀) l p) (hroom : roomy l = true) :
    (∀ id x, p.store.amount id = some x → p.store.filled id ≤ x) ∧
      ∀ d ∈ l, ∀ id x, d.store.amount id = some x → d.store.filled id ≤ x := by
  obtain ⟨hkept, -⟩ := Protocol.run_follows (P := fillProtocol ar) run (given_of_roomy hroom) hstart
    fun i => FillTask.obeys i (ts i) _
  refine ⟨hkept.inv.within, fun d hd => ?_⟩
  obtain ⟨l', hinv, -⟩ := hkept.past d hd
  exact hinv.within

end Protocol

/-! ## Two auctions of one intent -/

theorem covered_of_no_fills {w : World} (hf : w.fills.rows = [])
    (hi : ∀ i ∈ w.intents.rows, 0 ≤ i.amountIn) : Covered w := by
  have hzero : ∀ id, w.filled id = 0 := fun id => by simp [World.filled, Table.sum, hf]
  refine ⟨fun id x hx => ?_, fun id _ => hzero id⟩
  obtain ⟨i, hi', rfl⟩ := Option.map_eq_some_iff.1 hx
  rw [hzero]
  exact hi i (World.intent_some_iff.1 hi').1

/-- Two deliveries of the creation of intent 70. -/
def twoAuctions : Bool → FillTask
  | false => .worker (.closeAuction demoEnv 70)
  | true => .worker (.closeAuction demoEnv' 70)

/-- Redis works, and nothing else happens. -/
def quiet : Meanwhile := ⟨upBus, id, .refl⟩

/-- The auctions take their turns in the given order; the only bid covers the intent. -/
def overfillRun (order : List Bool) :
    List (Done Act World Bool) × Pool Act Act.Reply ActError World Bool :=
  Pool.play (execMeanwhile .release) (order.map fun i => (i, quiet))
    ([], fillTasks twoAuctions (minOutputDemo 0))

theorem overfillRun_run (order : List Bool) :
    Pool.Run (execMeanwhile .release) (fillTasks twoAuctions (minOutputDemo 0)) (overfillRun order).1
      (overfillRun order).2 := by
  apply Pool.Run.play
  exact .start

theorem minOutputDemo_covered : Covered (minOutputDemo 0) :=
  covered_of_no_fills rfl (by decide +kernel)

/-- One auction fills the intent. -/
theorem one_auction_covered : (overfillRun [false, false, false, false]).2.store.filled 70 ≤ 100 :=
  (no_overfill .release twoAuctions (minOutputDemo 0) _ _ minOutputDemo_covered (overfillRun_run _)
    (by decide +kernel)).1 70 100 (by decide +kernel)

/-- The second auction fills it once more. -/
theorem two_auctions_overfill :
    ¬ ∀ (ts : Bool → FillTask) (w₀ : World) (l : List (Done Act World Bool))
      (p : Pool Act Act.Reply ActError World Bool), Covered w₀ →
      Pool.Run (execMeanwhile .release) (fillTasks ts w₀) l p →
      ∀ id x, p.store.amount id = some x → p.store.filled id ≤ x := by
  intro h
  have hbad := h twoAuctions (minOutputDemo 0) _ _ minOutputDemo_covered
    (overfillRun_run [false, false, false, false, true, true, true, true]) 70 100 (by decide +kernel)
  revert hbad
  decide +kernel

end IntentX
