import IntentX.Intents
import IntentX.Holdings

/-!
# What the transactions on intents do

One specification for each transaction body that succeeds: which cell it moves, by how much, and
what it does to the intent row.  The balance arguments and the status arguments both start here.
-/

namespace IntentX

open Lib

theorem World.intent_some_iff {w : World} {id : Uuid} {i : Intent} :
    w.intent id = some i ↔ i ∈ w.intents.rows ∧ i.id = id :=
  Table.find_pk_iff

theorem World.balance_avail (w : World) (a : Uuid) (s : Asset) :
    ((w.balance a s).map (·.availableBalance)).getD 0 = w.avail (a, s) := by
  rcases hb : w.balance a s with _ | b
  · exact (World.avail_of_none (World.balance_none_iff.1 hb)).symm
  · obtain ⟨hm, hk⟩ := World.balance_some_iff.1 hb
    rw [← hk, World.avail_of_mem hm]
    rfl

section Bodies

variable {ar : Arith} {w w' : World} {a id : Uuid} {s : Asset} {x now : Int}

theorem insertIntent_ok {i : Intent} (h : execStmt ar (.insertIntent i) w = (.ok (), w')) :
    ∃ t, w.intents.insert i = some t ∧ w' = { w with intents := t } := by
  simp only [execStmt] at h
  rcases hi : w.intents.insert i with _ | t
  · simp [inserted, hi] at h
  · simp only [inserted, hi, Prod.mk.injEq, true_and] at h
    exact ⟨t, rfl, h.symm⟩

/-- The amount is covered and locked, as far as the account has a row, and the intent is there. -/
theorem createBody_ok {i : Intent}
    (h : Call.exec (execStmt ar) (createBody a s x now i) w = (.ok (), w')) :
    x ≤ w.avail (a, s) ∧ ∃ w₁ t, Moves (a, s) (-w.ifRow a s x) (w.ifRow a s x) w w₁ ∧
      w.intents.insert i = some t ∧ w' = { w₁ with intents := t } := by
  simp only [createBody, Call.exec_bind_ok, Call.exec_failIf_ok] at h
  obtain ⟨row, _, hsel, _, _, ⟨hcov, rfl⟩, _, w₁, hlock, hins⟩ := h
  obtain ⟨rfl, rfl⟩ := query_eq hsel rfl
  rw [World.balance_avail] at hcov
  have hm := lockFunds_ok (exec_sql_ok.1 hlock)
  obtain ⟨t, ht, rfl⟩ := insertIntent_ok (exec_sql_ok.1 hins)
  refine ⟨by omega, w₁, t, hm, ?_, rfl⟩
  rwa [hm.frame] at ht

theorem releaseBody_ok {st : IntentStatus}
    (h : Call.exec (execStmt ar) (releaseBody id a s x now st) w = (.ok (), w')) :
    ∃ w₁, Moves (a, s) (w.ifRow a s x) (-w.ifRow a s x) w w₁ ∧ w' = w₁.setStatus id st := by
  obtain ⟨_, w₁, hunl, hset⟩ := Call.exec_bind_ok.1 h
  exact ⟨w₁, unlockFunds_ok (exec_sql_ok.1 hunl), (query_eq hset rfl).2.symm⟩

/-- What the balance adjustment of an amendment by `diff` locks (a release is negative). -/
def World.adjustment (ar : Arith) (w : World) (a : Uuid) (s : Asset) (diff : Int) : Int :=
  if 0 < diff then w.ifRow a s diff else if diff < 0 then -w.ifRow a s (ar.rust (-diff)) else 0

/-- An amendment by `diff` is covered and adjusts the lock. -/
def Adjusts (ar : Arith) (a : Uuid) (s : Asset) (diff : Int) (w w' : World) : Prop :=
  (0 < diff → diff ≤ w.avail (a, s)) ∧
    Moves (a, s) (-w.adjustment ar a s diff) (w.adjustment ar a s diff) w w'

theorem adjustLock_ok {diff : Int}
    (h : Call.exec (execStmt ar) (adjustLock ar a s diff now) w = (.ok (), w')) :
    Adjusts ar a s diff w w' := by
  unfold adjustLock at h
  unfold Adjusts World.adjustment
  split at h
  · simp only [Call.exec_bind_ok, Call.exec_failIf_ok] at h
    obtain ⟨row, _, hsel, _, _, ⟨hcov, rfl⟩, hlock⟩ := h
    obtain ⟨rfl, rfl⟩ := query_eq hsel rfl
    rw [World.balance_avail] at hcov
    rw [if_pos ‹_›]
    exact ⟨fun _ => by omega, lockFunds_ok (exec_sql_ok.1 hlock)⟩
  · rw [if_neg ‹_›]
    refine ⟨fun hpos => absurd hpos ‹_›, ?_⟩
    split at h
    · rw [if_pos ‹_›, neg_neg]
      exact unlockFunds_ok (exec_sql_ok.1 h)
    · rw [if_neg ‹_›]
      obtain ⟨-, rfl⟩ := Prod.mk.inj h
      exact Moves.refl (a, s) w

/-- The amendments table is the only thing an entry in it changes. -/
theorem insertAmendment_ok {E : Type} {c : Prop} [Decidable c] {f : SqlError → E}
    {m : IntentAmendment}
    (h : Call.exec (execStmt ar) (Call.doIf c (query (.insertAmendment m) f)) w = (.ok (), w')) :
    w' = { w with intentAmendments := w'.intentAmendments } := by
  rw [Call.exec_doIf] at h
  split at h
  · rw [(query_eq h rfl).2.symm]
  · obtain ⟨-, rfl⟩ := Prod.mk.inj h
    rfl

/-- The amount of an intent after an amendment. -/
def Intent.newAmount (i : Intent) (newAmountIn : Option UInt64) : Int :=
  (newAmountIn.map asI64).getD i.amountIn

theorem amendBody_ok {y z : Option UInt64} {p : Option Int}
    (h : Call.exec (execStmt ar) (amendBody ar id a y z p now) w = (.ok (), w')) :
    ∃ i s w₁ log minOut price, w.intent id = some i ∧ i.status.amendable = true ∧
      parseAsset i.tokenIn = some s ∧
      Adjusts ar a s (ar.rust (i.newAmount y - i.amountIn)) w w₁ ∧
      w' = { w₁ with intentAmendments := log }.amendRow id (i.newAmount y) minOut price := by
  simp only [amendBody, Call.exec_bind_ok, Call.exec_orThrow_ok, Call.exec_failIf_ok, not_not] at h
  obtain ⟨row, _, hsel, i, _, ⟨hrow, rfl⟩, _, _, ⟨hst, rfl⟩, s, _, ⟨hs, rfl⟩, n, _, hcnt,
    _, w₁, hadj, _, w₂, hrec₁, _, w₃, hrec₂, _, w₄, hrec₃, hset⟩ := h
  obtain ⟨rfl, rfl⟩ := query_eq hsel rfl
  obtain ⟨rfl, rfl⟩ := query_eq hcnt rfl
  have hw := (query_eq hset rfl).2.symm
  refine ⟨i, s, w₁, w₄.intentAmendments, (z.map asI64).getD i.minAmountOut, p.or i.limitPrice,
    hrow, hst, hs, adjustLock_ok hadj, hw.trans ?_⟩
  rw [insertAmendment_ok hrec₃, insertAmendment_ok hrec₂, insertAmendment_ok hrec₁]
  rfl

/-- The cell an expiry releases to: the account of the user and the asset of the token. -/
def World.expiryCell (w : World) (i : Intent) : Option Cell :=
  (w.accountByUser i.userId).bind fun a => (parseAsset i.tokenIn).map fun s => (a, s)

/-- What an expiry releases: the amount of the snapshot where so much is locked. -/
def World.expiryRelease (w : World) (i : Intent) : Int :=
  match w.expiryCell i with
  | some k => w.ifLocked k.1 k.2 i.amountIn
  | none => 0

/-- An expiry does nothing, or releases what it finds and marks the intent. -/
theorem expireBody_ok {i : Intent} {b : Bool}
    (h : Call.exec (execStmt ar) (expireBody i now) w = (.ok b, w')) :
    ((∀ cur, w.intent i.id = some cur → cur.status.amendable = false) ∧ w' = w) ∨
    ∃ cur w₁, w.intent i.id = some cur ∧ cur.status.amendable = true ∧
      (∀ k, w.expiryCell i = some k → Moves k (w.expiryRelease i) (-w.expiryRelease i) w w₁) ∧
      (w.expiryCell i = none → w₁ = w) ∧ w' = w₁.setStatus i.id .Expired := by
  obtain ⟨row, _, hsel, hrest⟩ := Call.exec_bind_ok.1 h
  obtain ⟨rfl, rfl⟩ := query_eq hsel rfl
  rcases hcur : w.intent i.id with _ | cur <;> rw [hcur] at hrest
  · obtain ⟨-, rfl⟩ := Prod.mk.inj hrest
    exact .inl ⟨fun _ he => (nomatch he), rfl⟩
  by_cases hst : cur.status.amendable = true
  case neg =>
    simp only [hst, if_false, Bool.false_eq_true] at hrest
    obtain ⟨-, rfl⟩ := Prod.mk.inj hrest
    refine .inl ⟨fun c hc => ?_, rfl⟩
    cases hc
    simpa using hst
  simp only [hst, if_true, Call.exec_bind_ok] at hrest
  obtain ⟨_, w₁, hset, acc, _, hacc, hrest⟩ := hrest
  have hw₁ : w₁ = w.setStatus i.id .Expired := (query_eq hset rfl).2.symm
  subst hw₁
  obtain ⟨rfl, rfl⟩ := query_eq hacc rfl
  -- the account is looked up after the status write, which changes neither users nor accounts
  have hsame : (w.setStatus i.id .Expired).accountByUser i.userId = w.accountByUser i.userId := rfl
  rw [hsame] at hrest
  refine .inr ⟨cur, { w' with intents := w.intents }, rfl, hst, ?_⟩
  unfold World.expiryRelease World.expiryCell
  rcases hacc : w.accountByUser i.userId with _ | a
  · simp only [hacc, Call.exec_pure, Prod.mk.injEq] at hrest
    obtain ⟨-, rfl⟩ := hrest
    exact ⟨fun k hk => (nomatch hk), fun _ => rfl, rfl⟩
  rcases hs : parseAsset i.tokenIn with _ | s
  · simp only [hacc, hs, Call.exec_pure, Prod.mk.injEq] at hrest
    obtain ⟨-, rfl⟩ := hrest
    exact ⟨fun k hk => (nomatch hk), fun _ => rfl, rfl⟩
  simp only [hacc, hs] at hrest
  obtain ⟨_, w₂, hunl, hret⟩ := Call.exec_bind_ok.1 hrest
  obtain ⟨-, rfl⟩ := Prod.mk.inj hret
  have hm := unlockFundsIfLocked_ok (exec_sql_ok.1 hunl)
  refine ⟨fun k hk => ?_, fun hk => (nomatch hk), ?_⟩
  · cases hk
    exact ⟨hm.avail, hm.locked, hm.rows, by rw [hm.frame]; rfl⟩
  · rw [hm.frame]
    rfl

end Bodies

/-! ## Acts within a task -/

section Acts

variable {ar : Arith} {bus : Bus} {E : Type} {I : World → Prop} {w : World}

theorem exec_getIntent (id : Uuid) :
    Call.exec (execAct ar bus) (getIntent id : Task E _) w = (.ok (w.intent id), w) := rfl

/-- A transaction keeps what its body keeps when it succeeds. -/
theorem ends_tx {t : Tx} {f : ActError → E} (hw : I w)
    (hok : ∀ r w', Call.exec (execStmt ar) (t.body ar) w = (.ok r, w') → I w') :
    Call.Ends (execAct ar bus) I (Call.op (Act.tx t) f) w := by
  apply Call.ends_op
  show I (Call.transaction (execStmt ar) (t.body ar) w).2
  rcases Call.transaction_cases (h := execStmt ar) (t.body ar) w with ⟨r, w', hx, ht⟩ | ⟨e, ht⟩
  · rw [ht]
    exact hok r w' hx
  · rw [ht]
    exact hw

/-- A message changes the event list at most. -/
theorem execAct_publish (ar : Arith) (bus : Bus) (w : World) (e : Event) :
    ∃ l, (execAct ar bus (.publish e) w).2 = { w with events := l } := by
  simp only [execAct]
  split
  · exact ⟨_, rfl⟩
  · exact ⟨w.events, rfl⟩

theorem execAct_stream (ar : Arith) (bus : Bus) (w : World) (e : StreamEvent) :
    ∃ l, (execAct ar bus (.stream e) w).2 = { w with streams := l } := by
  simp only [execAct]
  split
  · exact ⟨_, rfl⟩
  · exact ⟨w.streams, rfl⟩

/-- The property says nothing about messages. -/
structure Silent (I : World → Prop) : Prop where
  events : ∀ w l, I w → I { w with events := l }
  streams : ∀ w l, I w → I { w with streams := l }

theorem Silent.publish (hI : Silent I) (hw : I w) (e : Event) :
    I (execAct ar bus (.publish e) w).2 := by
  obtain ⟨l, hl⟩ := execAct_publish ar bus w e
  rw [hl]
  exact hI.events w l hw

theorem Silent.stream (hI : Silent I) (hw : I w) (e : StreamEvent) :
    I (execAct ar bus (.stream e) w).2 := by
  obtain ⟨l, hl⟩ := execAct_stream ar bus w e
  rw [hl]
  exact hI.streams w l hw

end Acts

/-! ## The calls of the intent service and the expiry worker -/

section Calls

variable {ar : Arith} {bus : Bus} {env : Env} {I : World → Prop} {w : World}

/-- A call of `create_intent` keeps what its transaction keeps. -/
theorem createIntent_ends (hI : Silent I) (hw : I w) {view : RiskView} {userId : String}
    {accountId : Uuid} {tokenIn tokenOut : String} {amountIn minAmountOut : UInt64} {deadline : Int}
    (hok : ∀ m s w', validateIntent view
        { userId, accountId, tokenIn, tokenOut, amountIn, minAmountOut } = .ok m →
      parseAsset tokenIn = some s →
      Call.exec (execStmt ar) (createBody accountId s (asI64 amountIn) (env.now 1)
        (Intent.new (env.uuid 0) userId tokenIn tokenOut amountIn minAmountOut deadline (env.now 0)))
        w = (.ok (), w') → I w') :
    Call.Ends (execAct ar bus) I
      (createIntent env view userId accountId tokenIn tokenOut amountIn minAmountOut deadline) w := by
  unfold createIntent
  split
  · exact Call.ends_throw hw
  · next m hm =>
    refine Call.ends_orThrow_bind hw fun s hs => ?_
    refine Call.ends_bind (ends_tx hw fun _ w' hx => hok m s w' hm hs (Call.exec_mapErr_ok.1 hx)) ?_
    intro _ w₁ _ hw₁
    refine Call.ends_bind (Call.ends_op (hI.publish hw₁ _)) ?_
    intro _ w₂ _ hw₂
    exact Call.ends_bind (Call.ends_attempt (hI.stream hw₂ _)) fun _ _ _ hw₃ => Call.ends_pure hw₃

/-- A call of `cancel_intent` or `fail_intent` keeps what its transaction keeps, and that runs with
the row as it was read. -/
theorem closeIntent_ends (hI : Silent I) (hw : I w) {status : IntentStatus} {event : Intent → Event}
    {id a : Uuid}
    (hok : ∀ i s w', w.intent id = some i → parseAsset i.tokenIn = some s →
      Call.exec (execStmt ar) (releaseBody id a s i.amountIn (env.now 0) status) w = (.ok (), w') →
      I w') :
    Call.Ends (execAct ar bus) I (closeIntent env status event id a) w := by
  refine Call.ends_bind_of_exec (exec_getIntent id) ?_
  rcases hi : w.intent id with _ | i
  · exact Call.ends_pure hw
  · refine Call.ends_orThrow_bind hw fun s hs => ?_
    refine Call.ends_bind (ends_tx hw fun _ w' hx => hok i s w' hi hs (Call.exec_mapErr_ok.1 hx)) ?_
    intro _ w₁ _ hw₁
    exact Call.ends_bind (Call.ends_op (hI.publish hw₁ _)) fun _ _ _ hw₂ => Call.ends_pure hw₂

theorem amendIntent_ends (hI : Silent I) (hw : I w) {id a : Uuid} {x y : Option UInt64}
    {p : Option Int}
    (hok : ∀ w', Call.exec (execStmt ar) (amendBody ar id a x y p (env.now 0)) w = (.ok (), w') →
      I w') :
    Call.Ends (execAct ar bus) I (amendIntent env id a x y p) w := by
  refine Call.ends_bind (ends_tx hw fun _ w' hx => hok w' (Call.exec_mapErr_ok.1 hx)) ?_
  intro _ w₁ _ hw₁
  refine Call.ends_bind_of_exec (exec_getIntent id) ?_
  refine Call.ends_orThrow_bind hw₁ fun _ _ => ?_
  exact Call.ends_bind (Call.ends_op (hI.publish hw₁ _)) fun _ _ _ hw₂ => Call.ends_pure hw₂

theorem expireIntent_ends (hI : Silent I) (hw : I w) {i : Intent}
    (hok : ∀ b w', Call.exec (execStmt ar) (expireBody i (env.now 0)) w = (.ok b, w') → I w') :
    Call.Ends (execAct ar bus) I (expireIntent env i) w := by
  refine Call.ends_bind (ends_tx hw fun b w' hx => hok b w' (Call.exec_mapErr_ok.1 hx)) ?_
  intro _ w₁ _ hw₁
  refine Call.ends_doIf hw₁ ?_
  refine Call.ends_bind (Call.ends_attempt (hI.publish hw₁ _)) ?_
  intro _ w₂ _ hw₂
  exact Call.ends_bind (Call.ends_attempt (hI.stream hw₂ _)) fun _ _ _ hw₃ => Call.ends_pure hw₃

end Calls

end IntentX
