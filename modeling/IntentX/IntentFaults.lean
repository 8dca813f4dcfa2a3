import IntentX.UserLimits

/-!
# Failures inside a call of the intent service

`create_intent`, `cancel_intent`, `fail_intent` and `amend_intent` make their changes in one
transaction, and then publish an event with `?`; an amendment first reads the row again, where an
error counts as no row.  `Faults` says what fails while a call runs: the start of the transaction, any
of its statements, its commit, whose answer may also be lost, a statement on the pool, the messages.

A failure up to the commit is rolled back.  One that comes after it is returned all the same, with the
tables changed and the intent counted.  `Torn` is that kind of failure, in terms of the state before
the call: the transaction can be carried out (`Goes`), it changes a row, and its outcome does not get
through.  The counters are compared as a check reads them (`seen`): a check drops by itself what is out
of date.
-/

namespace IntentX.IntentFaults

open Lib RiskEngine

/-! ## Faults -/

/-- What becomes of a commit: it is made, it is refused, or it is made and the answer is lost. -/
inductive Commit where
  | made
  | refused (e : SqlError)
  | lost (e : SqlError)
  deriving DecidableEq, Repr

/-- What fails while a call runs, and with which error. -/
structure Faults where
  begin : Option SqlError
  stmt : Stmt → Option SqlError
  commit : Commit
  pool : Stmt → Option SqlError
  bus : Bus

namespace Faults

/-- A statement of a transaction. -/
def execStmt (f : Faults) (o : Stmt) (w : World) : Except SqlError o.Reply × World :=
  match f.stmt o with
  | some e => (.error e, w)
  | none => IntentX.execStmt .release o w

/-- A transaction that is begun: an error of its body rolls it back, else it commits. -/
def settle {α : Type} (commit : Commit) (w : World) :
    Except ActError α × World → Except ActError α × World
  | (.error x, _) => (.error x, w)
  | (.ok a, w') =>
    match commit with
    | .made => (.ok a, w')
    | .refused e => (.error (.db e), w)
    | .lost e => (.error (.db e), w')

def execTx (f : Faults) (t : Tx) (w : World) : Except ActError t.Reply × World :=
  match f.begin with
  | some e => (.error (.db e), w)
  | none => settle f.commit w (Call.exec f.execStmt (t.body .release) w)

def acts (f : Faults) : Acts
  | .sql o, w =>
    match f.pool o with
    | some e => (.error (.db e), w)
    | none => execAct .release f.bus (.sql o) w
  | .tx t, w => f.execTx t w
  | .publish e, w => execAct .release f.bus (.publish e) w
  | .stream e, w => execAct .release f.bus (.stream e) w

/-- Nothing fails but what Redis refuses. -/
def none (bus : Bus) : Faults := ⟨.none, fun _ => .none, .made, fun _ => .none, bus⟩

/-- The database answers each of the statements. -/
def Answers (f : Faults) (l : List Stmt) : Prop := ∀ o ∈ l, f.stmt o = .none

variable {f : Faults} {w w' : World}

@[simp] theorem answers_nil : f.Answers [] ↔ True := by simp [Answers]

@[simp] theorem answers_cons {o : Stmt} {l : List Stmt} :
    f.Answers (o :: l) ↔ f.stmt o = .none ∧ f.Answers l := by simp [Answers]

@[simp] theorem answers_append {l l' : List Stmt} :
    f.Answers (l ++ l') ↔ f.Answers l ∧ f.Answers l' := by simp [Answers, or_imp, forall_and]

theorem exec_query_ok {E : Type} {o : Stmt} {g : SqlError → E} {r : o.Reply} :
    Call.exec f.execStmt (query o g) w = (.ok r, w') ↔
      f.stmt o = .none ∧ IntentX.execStmt .release o w = (.ok r, w') := by
  rw [Call.exec_op]
  unfold execStmt
  rcases f.stmt o with _ | e
  · rcases IntentX.execStmt .release o w with ⟨r', w₁⟩
    cases r' <;> simp
  · simp

end Faults

theorem ok_inj {ε α : Type} {r r' : α} {w w' : World}
    (h : ((.ok r : Except ε α), w) = (.ok r', w')) : r = r' ∧ w = w' := by
  cases h
  exact ⟨rfl, rfl⟩

/-! ## The tables and the counters -/

def SameTables (w w' : World) : Prop :=
  w'.intents = w.intents ∧ w'.balances = w.balances ∧ w'.intentAmendments = w.intentAmendments

/-- What `check_user_limits` goes by: the intents of the last minute and the volume of the day. -/
def seen (a : UserActivity) (wall mono : Int) : List Int × UInt64 :=
  ((a.pruneOldIntents mono).recentIntents, (a.resetIfNewDay wall).dailyVolume)

/-- Whenever the counters are read from now on, they are as they were. -/
def SameCounters (e e' : Engine) : Prop :=
  ∀ userId wall mono, e'.wall ≤ wall → e'.mono ≤ mono →
    seen ((e'.activity userId).getD (.new wall)) wall mono =
      seen ((e.activity userId).getD (.new wall)) wall mono

/-! ## Statements on a balance -/

/-- The cell with `d` more available and `d` less locked. -/
def shifted (d now : Int) (b : Balance) : Balance :=
  { b with availableBalance := b.availableBalance + d, lockedBalance := b.lockedBalance - d,
           updatedAt := now }


theorem shifted_keys (d now : Int) (b : Balance) :
    (shifted d now b).id = b.id ∧ (shifted d now b).key = b.key := ⟨rfl, rfl⟩

/-- The database with `d` moved from the locked to the available balance of a cell. -/
def shift (w : World) (a : Uuid) (s : Asset) (d now : Int) : World :=
  { w with
    balances := w.balances.update (fun b => decide (b.key = (a, s))) (shifted d now)
      (shifted_keys d now) }

/-- The new balances are 64-bit numbers. -/
def Fits (w : World) (a : Uuid) (s : Asset) (d : Int) : Prop :=
  ∀ b ∈ w.balances.rows, b.key = (a, s) →
    inI64 (b.availableBalance + d) = true ∧ inI64 (b.lockedBalance - d) = true

section Balances

variable {w w' : World} {a : Uuid} {s : Asset} {d x now : Int}

theorem fits_iff : (w.balances.rows.all fun b => !decide (b.key = (a, s)) ||
    (inI64 (b.availableBalance + d) && inI64 (b.lockedBalance - d))) = true ↔ Fits w a s d := by
  simp only [List.all_eq_true, Bool.or_eq_true, Bool.not_eq_true', decide_eq_false_iff_not,
    Bool.and_eq_true, Fits]
  exact forall₂_congr fun b _ => ⟨fun h hk => h.resolve_left (not_not.2 hk), fun h => by tauto⟩

/-- An update of the cell that shifts `d`, however it is written. -/
theorem updateBalances_iff {g : Balance → Balance} {hg} (hd : g = shifted d now) :
    ((w.updateBalances .release (fun b => decide (b.key = (a, s))) g hg).1.map fun _ => (),
      (w.updateBalances .release (fun b => decide (b.key = (a, s))) g hg).2) = (.ok (), w') ↔
      Fits w a s d ∧ w' = shift w a s d now := by
  subst hd
  rw [← fits_iff]
  unfold World.updateBalances
  split
  · next h => exact ⟨fun he => ⟨h, (Prod.mk.inj he).2.symm⟩, fun he => by rw [he.2]; rfl⟩
  · next h =>
    refine ⟨fun he => ?_, fun he => absurd he.1 h⟩
    cases he

theorem unlockFunds_iff :
    IntentX.execStmt .release (.unlockFunds a s x now) w = (.ok (), w') ↔
      Fits w a s x ∧ w' = shift w a s x now :=
  updateBalances_iff rfl

theorem lockFunds_iff :
    IntentX.execStmt .release (.lockFunds a s x now) w = (.ok (), w') ↔
      Fits w a s (-x) ∧ w' = shift w a s (-x) now := by
  refine updateBalances_iff (funext fun b => ?_)
  simp only [shifted, Int.sub_eq_add_neg, Int.neg_neg]

end Balances

/-! ## The transactions -/

section Bodies

variable {f : Faults} {w w' : World} {a id : Uuid} {s : Asset} {x now diff : Int} {i : Intent}

theorem exec_createBody :
    Call.exec f.execStmt (createBody a s x now i) w = (.ok (), w') ↔
      f.Answers [.selectBalance a s, .lockFunds a s x now, .insertIntent i] ∧ x ≤ w.avail (a, s) ∧
        Fits w a s (-x) ∧
        ∃ t, w.intents.insert i = some t ∧ w' = { shift w a s (-x) now with intents := t } := by
  simp only [createBody, Call.exec_bind_ok, Call.exec_failIf_ok, Faults.answers_cons,
    Faults.answers_nil, and_true]
  constructor
  · rintro ⟨row, _, hsel, _, _, ⟨hcov, rfl⟩, _, w₁, hlock, hins⟩
    obtain ⟨hsel', hrow⟩ := Faults.exec_query_ok.1 hsel
    obtain ⟨rfl, rfl⟩ := ok_inj hrow
    obtain ⟨hlock', hrun⟩ := Faults.exec_query_ok.1 hlock
    obtain ⟨hfit, rfl⟩ := lockFunds_iff.1 hrun
    obtain ⟨hins', hrun⟩ := Faults.exec_query_ok.1 hins
    obtain ⟨t, ht, rfl⟩ := insertIntent_ok hrun
    rw [World.balance_avail] at hcov
    exact ⟨⟨hsel', hlock', hins'⟩, by omega, hfit, t, ht, rfl⟩
  · rintro ⟨⟨hsel, hlock, hins⟩, hcov, hfit, t, ht, rfl⟩
    have hcov' : ¬ ((w.balance a s).map (·.availableBalance)).getD 0 < x := by
      rw [World.balance_avail]
      omega
    have ht' : (shift w a s (-x) now).intents.insert i = some t := ht
    have hrun : execStmt .release (.insertIntent i) (shift w a s (-x) now) =
        (.ok (), { shift w a s (-x) now with intents := t }) := by
      simp only [execStmt, ht', inserted]
    exact ⟨w.balance a s, w, Faults.exec_query_ok.2 ⟨hsel, rfl⟩, (), w, ⟨hcov', rfl⟩, (), _,
      Faults.exec_query_ok.2 ⟨hlock, lockFunds_iff.2 ⟨hfit, rfl⟩⟩,
      Faults.exec_query_ok.2 ⟨hins, hrun⟩⟩

theorem exec_releaseBody {st : IntentStatus} :
    Call.exec f.execStmt (releaseBody id a s x now st) w = (.ok (), w') ↔
      f.Answers [.unlockFunds a s x now, .setIntentStatus id st] ∧ Fits w a s x ∧
        w' = (shift w a s x now).setStatus id st := by
  simp only [releaseBody, Call.exec_bind_ok, Faults.answers_cons, Faults.answers_nil, and_true]
  constructor
  · rintro ⟨_, w₁, hun, hset⟩
    obtain ⟨hun', hrun⟩ := Faults.exec_query_ok.1 hun
    obtain ⟨hfit, rfl⟩ := unlockFunds_iff.1 hrun
    obtain ⟨hset', hrun⟩ := Faults.exec_query_ok.1 hset
    exact ⟨⟨hun', hset'⟩, hfit, (ok_inj hrun).2.symm⟩
  · rintro ⟨⟨hun, hset⟩, hfit, rfl⟩
    exact ⟨(), _, Faults.exec_query_ok.2 ⟨hun, unlockFunds_iff.2 ⟨hfit, rfl⟩⟩,
      Faults.exec_query_ok.2 ⟨hset, rfl⟩⟩

/-- The statements that adjust a lock by `diff`. -/
def adjustStmts (a : Uuid) (s : Asset) (diff now : Int) : List Stmt :=
  if 0 < diff then [.selectBalance a s, .lockFunds a s diff now]
  else if diff < 0 then [.unlockFunds a s (wrapI64 (-diff)) now]
  else []

/-- What is locked on top is available, and the new balances fit. -/
def CanAdjust (w : World) (a : Uuid) (s : Asset) (diff : Int) : Prop :=
  if 0 < diff then diff ≤ w.avail (a, s) ∧ Fits w a s (-diff)
  else if diff < 0 then Fits w a s (wrapI64 (-diff))
  else True

def adjusted (w : World) (a : Uuid) (s : Asset) (diff now : Int) : World :=
  if 0 < diff then shift w a s (-diff) now
  else if diff < 0 then shift w a s (wrapI64 (-diff)) now
  else w

theorem exec_adjustLock :
    Call.exec f.execStmt (adjustLock .release a s diff now) w = (.ok (), w') ↔
      f.Answers (adjustStmts a s diff now) ∧ CanAdjust w a s diff ∧ w' = adjusted w a s diff now := by
  unfold adjustLock adjustStmts CanAdjust adjusted
  split
  · simp only [Call.exec_bind_ok, Call.exec_failIf_ok, Faults.answers_cons, Faults.answers_nil,
      and_true]
    constructor
    · rintro ⟨row, _, hsel, _, _, ⟨hcov, rfl⟩, hlock⟩
      obtain ⟨hsel', hrow⟩ := Faults.exec_query_ok.1 hsel
      obtain ⟨rfl, rfl⟩ := ok_inj hrow
      obtain ⟨hlock', hrun⟩ := Faults.exec_query_ok.1 hlock
      obtain ⟨hfit, rfl⟩ := lockFunds_iff.1 hrun
      rw [World.balance_avail] at hcov
      exact ⟨⟨hsel', hlock'⟩, ⟨by omega, hfit⟩, rfl⟩
    · rintro ⟨⟨hsel, hlock⟩, ⟨hcov, hfit⟩, rfl⟩
      have hcov' : ¬ ((w.balance a s).map (·.availableBalance)).getD 0 < diff := by
        rw [World.balance_avail]
        omega
      exact ⟨w.balance a s, w, Faults.exec_query_ok.2 ⟨hsel, rfl⟩, (), w, ⟨hcov', rfl⟩,
        Faults.exec_query_ok.2 ⟨hlock, lockFunds_iff.2 ⟨hfit, rfl⟩⟩⟩
  · split
    · rw [Faults.answers_cons]
      simp only [Faults.answers_nil, and_true]
      exact Faults.exec_query_ok.trans (and_congr_right fun _ => unlockFunds_iff)
    · simp [eq_comm]

/-- An entry of the amendments table, where it is made. -/
theorem exec_insertAmendment {E : Type} {c : Prop} [Decidable c] {g : SqlError → E}
    {m : IntentAmendment} :
    Call.exec f.execStmt (Call.doIf c (query (.insertAmendment m) g)) w = (.ok (), w') ↔
      f.Answers ((if c then [m] else []).map .insertAmendment) ∧
        w' = { w with intentAmendments := w.intentAmendments ++ if c then [m] else [] } := by
  rw [Call.exec_doIf]
  split
  · simp only [List.map_cons, List.map_nil, Faults.answers_cons, Faults.answers_nil, and_true]
    refine Faults.exec_query_ok.trans (and_congr_right fun _ => ?_)
    exact ⟨fun h => (ok_inj h).2.symm, fun h => by rw [h]; rfl⟩
  · simp only [List.map_nil, Faults.answers_nil, List.append_nil, true_and]
    exact ⟨fun h => (ok_inj h).2.symm, fun h => by rw [h]⟩

theorem adjusted_intentAmendments :
    (adjusted w a s diff now).intentAmendments = w.intentAmendments := by
  unfold adjusted
  split
  · rfl
  · split <;> rfl

theorem adjusted_intents : (adjusted w a s diff now).intents = w.intents := by
  unfold adjusted
  split
  · rfl
  · split <;> rfl

end Bodies

/-- The arguments of `amend_intent`. -/
structure Amend where
  intentId : Uuid
  accountId : Uuid
  newAmountIn : Option UInt64
  newMinAmountOut : Option UInt64
  newLimitPrice : Option Int
  deriving DecidableEq, Repr

namespace Amend

variable (m : Amend)

def minOut (i : Intent) : Int := (m.newMinAmountOut.map asI64).getD i.minAmountOut

def diff (i : Intent) : Int := wrapI64 (i.newAmount m.newAmountIn - i.amountIn)

/-- The row after the amendment. -/
def row (i : Intent) : Intent :=
  i.amended (i.newAmount m.newAmountIn) (m.minOut i) (m.newLimitPrice.or i.limitPrice)

def entry (w : World) (i : Intent) (fieldChanged : String) (old new : Int) : IntentAmendment where
  intentId := m.intentId
  amendmentNumber :=
    (asI32 (w.intentAmendments.countP fun a => a.intentId == m.intentId) + 1).bmod (2 ^ 32)
  fieldChanged
  oldValue := toString old
  newValue := toString new
  amendedBy := i.userId

/-- One entry for every field that gets another value. -/
def entries (w : World) (i : Intent) : List IntentAmendment :=
  (if i.newAmount m.newAmountIn ≠ i.amountIn then
      [m.entry w i "amount_in" i.amountIn (i.newAmount m.newAmountIn)] else []) ++
    (if m.minOut i ≠ i.minAmountOut then
      [m.entry w i "min_amount_out" i.minAmountOut (m.minOut i)] else []) ++
    (if m.newLimitPrice.isSome ∧ m.newLimitPrice ≠ i.limitPrice then
      [m.entry w i "limit_price" (i.limitPrice.getD 0) (m.newLimitPrice.getD 0)] else [])

/-- The statements of the transaction. -/
def stmts (w : World) (i : Intent) (s : Asset) (now : Int) : List Stmt :=
  [.selectIntent m.intentId, .countAmendments m.intentId] ++
    adjustStmts m.accountId s (m.diff i) now ++ (m.entries w i).map .insertAmendment ++
    [.amendIntentRow m.intentId (i.newAmount m.newAmountIn) (m.minOut i)
      (m.newLimitPrice.or i.limitPrice)]

/-- The database after the transaction. -/
def result (w : World) (i : Intent) (s : Asset) (now : Int) : World :=
  { adjusted w m.accountId s (m.diff i) now with
    intentAmendments := w.intentAmendments ++ m.entries w i }.amendRow m.intentId
      (i.newAmount m.newAmountIn) (m.minOut i) (m.newLimitPrice.or i.limitPrice)

end Amend

theorem exec_amendBody {f : Faults} {w w' : World} {now : Int} {m : Amend} :
    Call.exec f.execStmt (amendBody .release m.intentId m.accountId m.newAmountIn m.newMinAmountOut
        m.newLimitPrice now) w = (.ok (), w') ↔
      ∃ i s, w.intent m.intentId = some i ∧ i.status.amendable = true ∧
        parseAsset i.tokenIn = some s ∧ f.Answers (m.stmts w i s now) ∧
        CanAdjust w m.accountId s (m.diff i) ∧ w' = m.result w i s now := by
  simp only [amendBody, Call.exec_bind_ok, Call.exec_orThrow_ok, Call.exec_failIf_ok, not_not]
  constructor
  · rintro ⟨row, _, hsel, i, _, ⟨hrow, rfl⟩, _, _, ⟨hst, rfl⟩, s, _, ⟨hs, rfl⟩, n, _, hcnt,
      _, w₁, hadj, _, w₂, hrec₁, _, w₃, hrec₂, _, w₄, hrec₃, hset⟩
    obtain ⟨hsel', hrun⟩ := Faults.exec_query_ok.1 hsel
    obtain ⟨rfl, rfl⟩ := ok_inj hrun
    obtain ⟨hcnt', hrun⟩ := Faults.exec_query_ok.1 hcnt
    obtain ⟨rfl, rfl⟩ := ok_inj hrun
    obtain ⟨hadj', hcan, rfl⟩ := exec_adjustLock.1 hadj
    obtain ⟨hans₁, rfl⟩ := exec_insertAmendment.1 hrec₁
    obtain ⟨hans₂, rfl⟩ := exec_insertAmendment.1 hrec₂
    obtain ⟨hans₃, rfl⟩ := exec_insertAmendment.1 hrec₃
    obtain ⟨hset', hrun⟩ := Faults.exec_query_ok.1 hset
    refine ⟨i, s, hrow, hst, hs, ?_, hcan, (ok_inj hrun).2.symm.trans ?_⟩
    · simp only [Amend.stmts, Amend.entries, List.map_append, Faults.answers_append,
        Faults.answers_cons, Faults.answers_nil, and_true]
      exact ⟨⟨⟨⟨hsel', hcnt'⟩, hadj'⟩, ⟨hans₁, hans₂⟩, hans₃⟩, hset'⟩
    · simp only [Amend.result, Amend.entries, adjusted_intentAmendments, List.append_assoc]
      rfl
  · rintro ⟨i, s, hrow, hst, hs, hans, hcan, rfl⟩
    simp only [Amend.stmts, Amend.entries, List.map_append, Faults.answers_append,
      Faults.answers_cons, Faults.answers_nil, and_true] at hans
    obtain ⟨⟨⟨⟨hsel, hcnt⟩, hadj⟩, ⟨hans₁, hans₂⟩, hans₃⟩, hset⟩ := hans
    refine ⟨_, _, Faults.exec_query_ok.2 ⟨hsel, rfl⟩, i, w, ⟨hrow, rfl⟩, (), w, ⟨hst, rfl⟩, s, w,
      ⟨hs, rfl⟩, _, _, Faults.exec_query_ok.2 ⟨hcnt, rfl⟩, (), _,
      exec_adjustLock.2 ⟨hadj, hcan, rfl⟩, (), _, exec_insertAmendment.2 ⟨hans₁, rfl⟩, (), _,
      exec_insertAmendment.2 ⟨hans₂, rfl⟩, (), _, exec_insertAmendment.2 ⟨hans₃, rfl⟩, ?_⟩
    refine Faults.exec_query_ok.2 ⟨hset, Prod.ext rfl ?_⟩
    simp only [Amend.result, Amend.entries, adjusted_intentAmendments, List.append_assoc]
    rfl

/-! ## What a transaction changes -/

section Changes

variable {w : World} {a id : Uuid} {s : Asset} {x now : Int} {i : Intent}

theorem SameTables.refl (w : World) : SameTables w w := ⟨rfl, rfl, rfl⟩

theorem SameTables.trans {w₁ w₂ : World} (h : SameTables w w₁) (h' : SameTables w₁ w₂) :
    SameTables w w₂ :=
  ⟨h'.1.trans h.1, h'.2.1.trans h.2.1, h'.2.2.trans h.2.2⟩

theorem SameTables.of_after {w₁ w₂ : World} (h' : SameTables w₁ w₂) (h : SameTables w w₂) :
    SameTables w w₁ :=
  ⟨h'.1.symm.trans h.1, h'.2.1.symm.trans h.2.1, h'.2.2.symm.trans h.2.2⟩

theorem insert_ne {t : Table Intent Intent.id Intent.id} (ht : w.intents.insert i = some t) :
    t ≠ w.intents := by
  intro hsame
  have hlen := congrArg List.length (Table.rows_insert ht)
  rw [hsame, List.length_append] at hlen
  simp at hlen

theorem shifted_eq_self {b : Balance} : shifted x now b = b ↔ x = 0 ∧ b.updatedAt = now := by
  constructor
  · intro h
    have hx := congrArg Balance.availableBalance h
    simp only [shifted] at hx
    exact ⟨by omega, (congrArg Balance.updatedAt h).symm⟩
  · rintro ⟨rfl, rfl⟩
    simp [shifted]

/-- A release writes another status, another amount or another time. -/
theorem release_same_iff {st : IntentStatus} (hi : w.intent id = some i) :
    SameTables w ((shift w a s x now).setStatus id st) ↔
      i.status = st ∧ ∀ b, w.balance a s = some b → x = 0 ∧ b.updatedAt = now := by
  obtain ⟨hm, rfl⟩ := World.intent_some_iff.1 hi
  have hintents : ((shift w a s x now).setStatus i.id st).intents = w.intents ↔ i.status = st := by
    show w.intents.update (fun j => j.id = i.id) (fun j => { j with status := st })
      (fun _ => ⟨rfl, rfl⟩) = w.intents ↔ _
    refine Table.update_eq_self_iff.trans ⟨fun h => ?_, fun h r hr hk => ?_⟩
    · exact (congrArg Intent.status (h i hm (decide_eq_true rfl))).symm
    · obtain rfl : r = i := eq_of_key_eq w.intents.pk_nodup hr hm (of_decide_eq_true hk)
      rw [← h]
  have hbalances : ((shift w a s x now).setStatus i.id st).balances = w.balances ↔
      ∀ b, w.balance a s = some b → x = 0 ∧ b.updatedAt = now := by
    show w.balances.update (fun b => decide (b.key = (a, s))) (shifted x now) (shifted_keys x now) =
      w.balances ↔ _
    refine Table.update_eq_self_iff.trans ⟨fun h b hb => ?_, fun h b hb hk => ?_⟩
    · obtain ⟨hbm, hbk⟩ := World.balance_some_iff.1 hb
      exact shifted_eq_self.1 (h b hbm (decide_eq_true hbk))
    · exact shifted_eq_self.2 (h b (World.balance_some_iff.2 ⟨hb, of_decide_eq_true hk⟩))
  unfold SameTables
  rw [hintents, hbalances]
  exact ⟨fun h => ⟨h.1, h.2.1⟩, fun h => ⟨h.1, h.2, rfl⟩⟩

theorem amend_same_iff {m : Amend} (hi : w.intent m.intentId = some i) :
    SameTables w (m.result w i s now) ↔ m.row i = i := by
  obtain ⟨hm, hid⟩ := World.intent_some_iff.1 hi
  have hintents : (m.result w i s now).intents = w.intents ↔ m.row i = i := by
    show (adjusted w m.accountId s (m.diff i) now).intents.update (fun j => j.id = m.intentId)
      (·.amended (i.newAmount m.newAmountIn) (m.minOut i) (m.newLimitPrice.or i.limitPrice))
      (fun _ => ⟨rfl, rfl⟩) = w.intents ↔ _
    rw [adjusted_intents]
    refine Table.update_eq_self_iff.trans ⟨fun h => h i hm (decide_eq_true hid), fun h j hj hk => ?_⟩
    obtain rfl : j = i :=
      eq_of_key_eq w.intents.pk_nodup hj hm ((of_decide_eq_true hk).trans hid.symm)
    exact h
  constructor
  · rintro ⟨hsame, -, -⟩
    exact hintents.1 hsame
  · intro hrow
    have hamount : i.newAmount m.newAmountIn = i.amountIn := congrArg Intent.amountIn hrow
    have hmin : m.minOut i = i.minAmountOut := congrArg Intent.minAmountOut hrow
    have hprice : m.newLimitPrice.or i.limitPrice = i.limitPrice := congrArg Intent.limitPrice hrow
    have hdiff : m.diff i = 0 := by
      unfold Amend.diff
      rw [hamount, Int.sub_self]
      rfl
    have hentries : m.entries w i = [] := by
      have hno : ¬ (m.newLimitPrice.isSome ∧ m.newLimitPrice ≠ i.limitPrice) := by
        rintro ⟨hsome, hne⟩
        obtain ⟨p, hp⟩ := Option.isSome_iff_exists.1 hsome
        rw [hp] at hprice hne
        exact hne hprice
      simp [Amend.entries, hamount, hmin, hno]
    refine ⟨hintents.2 hrow, ?_, ?_⟩
    · show (adjusted w m.accountId s (m.diff i) now).balances = w.balances
      simp [adjusted, hdiff]
    · show w.intentAmendments ++ m.entries w i = w.intentAmendments
      rw [hentries, List.append_nil]

end Changes

/-! ## What follows the commit -/

/-- The call that is left does not touch the tables, and it fails exactly when `broken`. -/
def Leaves (f : Faults) {α : Type} (p : Task IntentError α) (w : World) (broken : Prop) : Prop :=
  SameTables w (Call.exec f.acts p w).2 ∧ ((∃ x, (Call.exec f.acts p w).1 = .error x) ↔ broken)

/-- The transaction is committed and its outcome does not get through. -/
def Faults.Cut (f : Faults) (broken : Prop) : Prop :=
  (∃ e, f.commit = .lost e) ∨ f.commit = .made ∧ broken

/-- A call that returns an error leaves the tables as they were. -/
def Atomic (f : Faults) {α : Type} (p : Task IntentError α) (w : World) : Prop :=
  ∀ x w', Call.exec f.acts p w = (.error x, w') → SameTables w w'

/-- `cancel_intent` and `fail_intent` find the intent, their transaction can be carried out and changes
the status or the balance, and then it is cut. -/
def TornClose (f : Faults) (w : World) (env : Env) (st : IntentStatus) (event : Intent → Event)
    (id a : Uuid) : Prop :=
  ∃ i s, f.pool (.selectIntent id) = none ∧ w.intent id = some i ∧
    parseAsset i.tokenIn = some s ∧ f.begin = none ∧
    f.Answers [.unlockFunds a s i.amountIn (env.now 0), .setIntentStatus id st] ∧
    Fits w a s i.amountIn ∧
    (i.status ≠ st ∨ ∃ b, w.balance a s = some b ∧ (i.amountIn ≠ 0 ∨ b.updatedAt ≠ env.now 0)) ∧
    f.Cut (f.bus.takes (event { i with status := st }) = false)

/-- `amend_intent` finds an intent that it may amend, its transaction can be carried out and changes
the row, and then it is cut: also where the row cannot be read again. -/
def TornAmend (f : Faults) (w : World) (env : Env) (m : Amend) : Prop :=
  ∃ i s, w.intent m.intentId = some i ∧ i.status.amendable = true ∧
    parseAsset i.tokenIn = some s ∧ f.begin = none ∧ f.Answers (m.stmts w i s (env.now 0)) ∧
    CanAdjust w m.accountId s (m.diff i) ∧ m.row i ≠ i ∧
    f.Cut (f.pool (.selectIntent m.intentId) ≠ none ∨
      f.bus.takes (.IntentAmended (m.row i)) = false)

section Tasks

variable {f : Faults} {α : Type} {w : World}

theorem atomic_pure (v : α) : Atomic f (pure v) w := fun _ _ hx => nomatch hx

theorem atomic_throw (x : IntentError) : Atomic f (throw x : Task IntentError α) w := by
  rintro _ _ hx
  obtain ⟨-, rfl⟩ := Prod.mk.inj hx
  exact .refl w

theorem atomic_of_tx_error {t : Tx} {g : t.Reply → Task IntentError α} {x : ActError} {w' : World}
    (hx : f.execTx t w = (.error x, w')) :
    Atomic f (IntentX.act (.tx t) >>= g) w ↔ SameTables w w' := by
  have hrun : Call.exec f.acts (IntentX.act (.tx t) >>= g) w = (.error x.toIntent, w') :=
    Call.exec_op_bind_error (o := Act.tx t) hx
  unfold Atomic
  rw [hrun]
  exact ⟨fun h => h _ _ rfl, fun h _ _ he => (Prod.mk.inj he).2 ▸ h⟩

/-- The transaction is committed: what is left fails after a change, or not. -/
theorem atomic_of_tx_ok {t : Tx} {g : t.Reply → Task IntentError α} {r : t.Reply} {w' : World}
    {broken : Prop} (hx : f.execTx t w = (.ok r, w')) (hrest : Leaves f (g r) w' broken) :
    Atomic f (IntentX.act (.tx t) >>= g) w ↔ ¬ (¬ SameTables w w' ∧ broken) := by
  obtain ⟨hsame, hfail⟩ := hrest
  have hrun : Call.exec f.acts (IntentX.act (.tx t) >>= g) w = Call.exec f.acts (g r) w' :=
    Call.exec_op_bind_ok (o := Act.tx t) hx
  unfold Atomic
  rw [hrun]
  rcases hg : Call.exec f.acts (g r) w' with ⟨res, w''⟩
  rw [hg] at hsame hfail
  constructor
  · rintro h ⟨hch, hbroken⟩
    obtain ⟨x, hx⟩ := hfail.2 hbroken
    exact hch (hsame.of_after (h x w'' (Prod.ext hx rfl)))
  · intro h x w₁ he
    obtain ⟨hx, rfl⟩ := Prod.mk.inj he
    have hch : SameTables w w' := by_contra fun hch => h ⟨hch, hfail.1 ⟨x, hx⟩⟩
    exact hch.trans hsame

/-- The tables are torn by a transaction that goes through, changes something and is cut. -/
theorem atomic_tx {t : Tx} {g : t.Reply → Task IntentError α} (broken : Prop)
    (hrest : ∀ r w', Call.exec f.execStmt (t.body .release) w = (.ok r, w') →
      Leaves f (g r) w' broken) :
    Atomic f (IntentX.act (.tx t) >>= g) w ↔
      ¬ (f.begin = none ∧
        (∃ r w', Call.exec f.execStmt (t.body .release) w = (.ok r, w') ∧ ¬ SameTables w w') ∧
        f.Cut broken) := by
  rcases hb : f.begin with _ | e
  case some =>
    have hx : f.execTx t w = (.error (.db e), w) := by simp only [Faults.execTx, hb]
    rw [atomic_of_tx_error hx]
    exact ⟨fun _ h => (nomatch h.1), fun _ => .refl w⟩
  rcases hbody : Call.exec f.execStmt (t.body .release) w with ⟨res, w'⟩
  cases res with
  | error x =>
    have hx : f.execTx t w = (.error x, w) := by simp only [Faults.execTx, hb, hbody, Faults.settle]
    rw [atomic_of_tx_error hx]
    exact ⟨fun _ ⟨_, ⟨_, _, hok, _⟩, _⟩ => (nomatch (Prod.mk.inj hok).1), fun _ => .refl w⟩
  | ok r =>
    have hgoes : (∃ r₁ w₁, ((.ok r : Except ActError t.Reply), w') = (.ok r₁, w₁) ∧
        ¬ SameTables w w₁) ↔ ¬ SameTables w w' :=
      ⟨fun ⟨_, _, hok, hch⟩ => (Prod.mk.inj hok).2 ▸ hch, fun hch => ⟨r, w', rfl, hch⟩⟩
    have htx : f.execTx t w = Faults.settle f.commit w (.ok r, w') := by
      simp only [Faults.execTx, hb, hbody]
    rw [hgoes]
    unfold Faults.Cut
    cases hc : f.commit with
    | refused e =>
      rw [hc] at htx
      rw [atomic_of_tx_error htx]
      exact ⟨fun _ ⟨_, _, hcut⟩ => hcut.elim (fun ⟨_, h⟩ => (nomatch h)) fun h => (nomatch h.1),
        fun _ => .refl w⟩
    | lost e =>
      rw [hc] at htx
      rw [atomic_of_tx_error htx]
      exact ⟨fun h hn => hn.2.1 h, fun h => by_contra fun hn => h ⟨rfl, hn, .inl ⟨e, rfl⟩⟩⟩
    | made =>
      rw [hc] at htx
      rw [atomic_of_tx_ok htx (hrest r w' hbody)]
      refine not_congr ⟨fun ⟨hch, hbroken⟩ => ⟨rfl, hch, .inr ⟨rfl, hbroken⟩⟩, ?_⟩
      rintro ⟨-, hch, ⟨_, h⟩ | ⟨-, hbroken⟩⟩
      · cases h
      · exact ⟨hch, hbroken⟩

theorem leaves_pure (v : α) : Leaves f (pure v) w False :=
  ⟨.refl w, fun ⟨_, hx⟩ => (nomatch hx), False.elim⟩

theorem leaves_stream (o : StreamEvent) (v : α) :
    Leaves f (IntentX.trySend (.stream o) >>= fun _ => pure v) w False := by
  obtain ⟨l, hl⟩ := execAct_stream .release f.bus w o
  have hrun : Call.exec f.acts
      (IntentX.trySend (.stream o) >>= fun _ => pure v : Task IntentError α) w =
      (.ok v, { w with streams := l }) := Prod.ext rfl hl
  unfold Leaves
  rw [hrun]
  exact ⟨⟨rfl, rfl, rfl⟩, fun ⟨_, hx⟩ => (nomatch hx), False.elim⟩

theorem leaves_publish (o : Event) {p : Task IntentError α}
    (hp : ∀ w, Leaves f p w False) :
    Leaves f (IntentX.act (.publish o) >>= fun _ => p) w (f.bus.takes o = false) := by
  unfold Leaves
  cases ho : f.bus.takes o with
  | false =>
    have hact : f.acts (.publish o) w = (.error (.redis f.bus.down), w) := by
      simp only [Faults.acts, execAct, ho]
      rfl
    have hrun : Call.exec f.acts (IntentX.act (.publish o) >>= fun _ => p) w =
        (.error (.RedisError f.bus.down), w) := Call.exec_op_bind_error hact
    rw [hrun]
    exact ⟨.refl w, fun _ => rfl, fun _ => ⟨_, rfl⟩⟩
  | true =>
    have hact : f.acts (.publish o) w = (.ok (), { w with events := w.events ++ [o] }) := by
      simp only [Faults.acts, execAct, ho]
      rfl
    have hrun : Call.exec f.acts (IntentX.act (.publish o) >>= fun _ => p) w =
        Call.exec f.acts p { w with events := w.events ++ [o] } := Call.exec_op_bind_ok hact
    rw [hrun]
    obtain ⟨hsame, hfail⟩ := hp { w with events := w.events ++ [o] }
    refine ⟨.trans ⟨rfl, rfl, rfl⟩ hsame, hfail.trans ⟨False.elim, fun h => ?_⟩⟩
    cases h

/-! ## The four calls -/

theorem atomic_createIntent {env : Env} {view : RiskView} {userId : String} {accountId : Uuid}
    {tokenIn tokenOut : String} {amountIn minAmountOut : UInt64} {deadline : Int} {i : Intent}
    (hi : i = Intent.new (env.uuid 0) userId tokenIn tokenOut amountIn minAmountOut deadline
      (env.now 0)) :
    Atomic f (IntentX.createIntent env view userId accountId tokenIn tokenOut amountIn minAmountOut
        deadline) w ↔
      ¬ ∃ m s, validateIntent view
          { userId, accountId, tokenIn, tokenOut, amountIn, minAmountOut } = .ok m ∧
        parseAsset tokenIn = some s ∧ f.begin = none ∧
        f.Answers [.selectBalance accountId s, .lockFunds accountId s (asI64 amountIn) (env.now 1),
          .insertIntent i] ∧
        asI64 amountIn ≤ w.avail (accountId, s) ∧ Fits w accountId s (-asI64 amountIn) ∧
        (∀ j ∈ w.intents.rows, j.id ≠ i.id) ∧ f.Cut (f.bus.takes (.IntentCreated i) = false) := by
  subst hi
  unfold IntentX.createIntent
  rcases hval : validateIntent view
    { userId, accountId, tokenIn, tokenOut, amountIn, minAmountOut } with x | m
  · exact iff_of_true (atomic_throw _) fun ⟨_, _, hm, _⟩ => (nomatch hm)
  rcases hs : parseAsset tokenIn with _ | s
  · exact iff_of_true (atomic_throw _) fun ⟨_, _, _, hs, _⟩ => (nomatch hs)
  refine (atomic_tx _ fun r w' hbody => leaves_publish _ fun w => leaves_stream _ _).trans (not_congr ?_)
  constructor
  · rintro ⟨hb, ⟨_, w', hbody, -⟩, hcut⟩
    obtain ⟨hans, hcov, hfit, t, ht, -⟩ := exec_createBody.1 (Call.exec_mapErr_ok.1 hbody)
    have hfree := Table.insert_isSome_iff.1 (Option.isSome_of_eq_some ht)
    exact ⟨m, s, rfl, rfl, hb, hans, hcov, hfit, fun j hj => (hfree j hj).1, hcut⟩
  · rintro ⟨_, _, hm, hs, hb, hans, hcov, hfit, hfree, hcut⟩
    cases hs
    obtain ⟨t, ht⟩ := Option.isSome_iff_exists.1
      (Table.insert_isSome_iff.2 fun j hj => ⟨hfree j hj, hfree j hj⟩)
    refine ⟨hb, ⟨(), _, Call.exec_mapErr_ok.2 (exec_createBody.2 ⟨hans, hcov, hfit, t, ht, rfl⟩), ?_⟩,
      hcut⟩
    exact fun hsame => insert_ne ht hsame.1

/-- What a read on the pool gives; an error counts as no row. -/
theorem exec_getIntent_bind {id : Uuid} {g : Option Intent → Task IntentError α} :
    Call.exec f.acts (getIntent id >>= g) w =
      Call.exec f.acts (g (if f.pool (.selectIntent id) = none then w.intent id else none)) w := by
  have hread : Call.exec f.acts (getIntent id : Task IntentError _) w =
      (.ok (if f.pool (.selectIntent id) = none then w.intent id else none), w) := by
    show (Except.ok (Option.join (f.acts (.sql (.selectIntent id)) w).1.toOption),
      (f.acts (.sql (.selectIntent id)) w).2) = _
    cases hp : f.pool (.selectIntent id) with
    | none =>
      simp only [Faults.acts, hp, if_true]
      rfl
    | some e =>
      simp only [Faults.acts, hp]
      rfl
  rw [Call.exec_bind, hread]

theorem atomic_closeIntent {env : Env} {st : IntentStatus} {event : Intent → Event} {id a : Uuid} :
    Atomic f (closeIntent env st event id a) w ↔ ¬ TornClose f w env st event id a := by
  unfold Atomic closeIntent
  rw [exec_getIntent_bind]
  by_cases hpool : f.pool (.selectIntent id) = none
  case neg =>
    rw [if_neg hpool]
    exact iff_of_true (atomic_pure _) fun ⟨_, _, h, _⟩ => hpool h
  rw [if_pos hpool]
  rcases hi : w.intent id with _ | i
  · exact iff_of_true (atomic_pure _) fun ⟨_, _, _, h, _⟩ => (nomatch hi.symm.trans h)
  rcases hs : parseAsset i.tokenIn with _ | s
  · refine iff_of_true ?_ ?_
    · show Atomic f (Call.orThrow (parseAsset i.tokenIn) _ >>= _) w
      rw [hs]
      exact atomic_throw _
    · rintro ⟨_, _, _, h, h', _⟩
      cases hi.symm.trans h
      cases hs.symm.trans h'
  show Atomic f (Call.orThrow (parseAsset i.tokenIn) _ >>= _) w ↔ _
  rw [hs]
  refine (atomic_tx _ fun r w' hbody => leaves_publish _ fun w => leaves_pure _).trans (not_congr ?_)
  have hchange : ∀ w', w' = (shift w a s i.amountIn (env.now 0)).setStatus id st →
      (¬ SameTables w w' ↔ i.status ≠ st ∨
        ∃ b, w.balance a s = some b ∧ (i.amountIn ≠ 0 ∨ b.updatedAt ≠ env.now 0)) := by
    rintro w' rfl
    rw [release_same_iff hi, not_and_or]
    simp only [not_forall, not_and_or, exists_prop]
  constructor
  · rintro ⟨hb, ⟨_, w', hbody, hch⟩, hcut⟩
    obtain ⟨hans, hfit, hw⟩ := exec_releaseBody.1 (Call.exec_mapErr_ok.1 hbody)
    exact ⟨i, s, hpool, hi, hs, hb, hans, hfit, (hchange w' hw).1 hch, hcut⟩
  · rintro ⟨_, _, -, hi', hs', hb, hans, hfit, hch, hcut⟩
    cases hi.symm.trans hi'
    cases hs.symm.trans hs'
    exact ⟨hb, ⟨(), _, Call.exec_mapErr_ok.2 (exec_releaseBody.2 ⟨hans, hfit, rfl⟩),
      (hchange _ rfl).2 hch⟩, hcut⟩

theorem intent_result {m : Amend} {i : Intent} {s : Asset} {now : Int}
    (hi : w.intent m.intentId = some i) :
    (m.result w i s now).intent m.intentId = some (m.row i) := by
  have hid := (World.intent_some_iff.1 hi).2
  show ((adjusted w m.accountId s (m.diff i) now).intents.update (fun j => j.id = m.intentId)
    (·.amended (i.newAmount m.newAmountIn) (m.minOut i) (m.newLimitPrice.or i.limitPrice))
    (fun _ => ⟨rfl, rfl⟩)).find (fun j => j.id = m.intentId) = _
  rw [Table.find_update_pk, adjusted_intents]
  show (w.intent m.intentId).map _ = _
  rw [hi, Option.map_some, if_pos (decide_eq_true hid)]
  rfl

/-- The row is read again, and its event is published. -/
theorem leaves_refetch {id : Uuid} {j : Intent} (hj : w.intent id = some j) :
    Leaves f (do
      let row ← getIntent id
      let amended ← Call.orThrow row .IntentNotFound
      IntentX.act (.publish (.IntentAmended amended))
      return amended) w
      (f.pool (.selectIntent id) ≠ none ∨ f.bus.takes (.IntentAmended j) = false) := by
  unfold Leaves
  rw [exec_getIntent_bind]
  by_cases hpool : f.pool (.selectIntent id) = none
  · rw [if_pos hpool, hj]
    obtain ⟨hsame, hfail⟩ : Leaves f (IntentX.act (.publish (.IntentAmended j)) >>= fun _ => pure j) w _ :=
      leaves_publish _ fun w => leaves_pure _
    refine ⟨hsame, hfail.trans ⟨.inr, fun h => h.resolve_left (not_not.2 hpool)⟩⟩
  · rw [if_neg hpool]
    exact ⟨.refl w, fun _ => .inl hpool, fun _ => ⟨_, rfl⟩⟩

theorem atomic_amendIntent {env : Env} {m : Amend} :
    Atomic f (amendIntent env m.intentId m.accountId m.newAmountIn m.newMinAmountOut
        m.newLimitPrice) w ↔ ¬ TornAmend f w env m := by
  unfold amendIntent
  by_cases hrow : ∃ i s, w.intent m.intentId = some i ∧ i.status.amendable = true ∧
      parseAsset i.tokenIn = some s ∧ f.Answers (m.stmts w i s (env.now 0)) ∧
      CanAdjust w m.accountId s (m.diff i)
  case neg =>
    have hbody : ∀ w', Call.exec f.execStmt (amendBody .release m.intentId m.accountId m.newAmountIn
        m.newMinAmountOut m.newLimitPrice (env.now 0)) w ≠ (.ok (), w') := by
      intro w' hx
      obtain ⟨i, s, hi, hst, hs, hans, hcan, -⟩ := exec_amendBody.1 hx
      exact hrow ⟨i, s, hi, hst, hs, hans, hcan⟩
    refine (atomic_tx False fun r w' hx =>
      absurd (Call.exec_mapErr_ok.1 hx) (hbody w')).trans (iff_of_true ?_ ?_)
    · rintro ⟨-, ⟨_, w', hx, -⟩, -⟩
      exact hbody w' (Call.exec_mapErr_ok.1 hx)
    · rintro ⟨i, s, hi, hst, hs, -, hans, hcan, -⟩
      exact hrow ⟨i, s, hi, hst, hs, hans, hcan⟩
  obtain ⟨i, s, hi, hst, hs, hans, hcan⟩ := hrow
  have hresult : ∀ w', Call.exec f.execStmt (amendBody .release m.intentId m.accountId m.newAmountIn
      m.newMinAmountOut m.newLimitPrice (env.now 0)) w = (.ok (), w') →
      w' = m.result w i s (env.now 0) := by
    intro w' hx
    obtain ⟨i', s', hi', -, hs', -, -, hw⟩ := exec_amendBody.1 hx
    cases hi.symm.trans hi'
    cases hs.symm.trans hs'
    exact hw
  refine (atomic_tx (f.pool (.selectIntent m.intentId) ≠ none ∨
    f.bus.takes (.IntentAmended (m.row i)) = false) fun r w' hx => ?_).trans (not_congr ?_)
  · rw [hresult w' (Call.exec_mapErr_ok.1 hx)]
    exact leaves_refetch (intent_result hi)
  constructor
  · rintro ⟨hb, ⟨_, w', hx, hch⟩, hcut⟩
    rw [hresult w' (Call.exec_mapErr_ok.1 hx), amend_same_iff hi] at hch
    exact ⟨i, s, hi, hst, hs, hb, hans, hcan, hch, hcut⟩
  · rintro ⟨i', s', hi', -, hs', hb, -, -, hch, hcut⟩
    cases hi.symm.trans hi'
    cases hs.symm.trans hs'
    refine ⟨hb, ⟨(), _, Call.exec_mapErr_ok.2 (exec_amendBody.2 ⟨i, s, hi, hst, hs, hans, hcan, rfl⟩),
      ?_⟩, hcut⟩
    rwa [amend_same_iff hi]

end Tasks

/-! ## The counters -/

section Counters

variable {a : UserActivity} {wall mono t : Int}

theorem dailyVolume_reset (a : UserActivity) (wall : Int) :
    (a.resetIfNewDay wall).dailyVolume =
      if dateNaive wall ≠ a.dayStart then 0 else a.dailyVolume :=
  apply_ite UserActivity.dailyVolume _ _ _

theorem seen_new : seen (.new t) wall mono = ([], 0) := by
  refine Prod.ext rfl ?_
  exact (dailyVolume_reset _ wall).trans (ite_self 0)

/-- Pruning does not show where the clock has moved on. -/
theorem seen_prune (h : t ≤ mono) : seen (a.pruneOldIntents t) wall mono = seen a wall mono := by
  have hlist : ((a.pruneOldIntents t).pruneOldIntents mono).recentIntents =
      (a.pruneOldIntents mono).recentIntents := by
    simp only [UserActivity.pruneOldIntents, List.filter_filter]
    refine List.filter_congr fun x _ => ?_
    rw [Bool.eq_iff_iff, Bool.and_eq_true, decide_eq_true_eq, decide_eq_true_eq]
    omega
  refine Prod.ext hlist ?_
  exact (dailyVolume_reset _ wall).trans (dailyVolume_reset a wall).symm

/-- Nor does the reset of a day that has passed. -/
theorem seen_reset (hday : a.dayStart ≤ dateNaive t) (h : t ≤ wall) :
    seen (a.resetIfNewDay t) wall mono = seen a wall mono := by
  by_cases hnew : dateNaive t ≠ a.dayStart
  · have hr : a.resetIfNewDay t = { a with dailyVolume := 0, dayStart := dateNaive t } := if_pos hnew
    have hlate : dateNaive wall ≠ a.dayStart := by
      have hle := dateNaive_mono h
      omega
    rw [hr]
    refine Prod.ext rfl ?_
    show (UserActivity.resetIfNewDay _ wall).dailyVolume = (a.resetIfNewDay wall).dailyVolume
    rw [dailyVolume_reset, dailyVolume_reset, if_pos hlate]
    exact ite_self 0
  · have hr : a.resetIfNewDay t = a := if_neg hnew
    rw [hr]

/-- No entry is of a day that has not come yet. -/
def Dated (e : Engine) : Prop := ∀ u a, e.activity u = some a → a.dayStart ≤ dateNaive e.wall

/-- Time has passed and the counters are as they were. -/
structure Quiet (e e' : Engine) : Prop where
  wall : e.wall ≤ e'.wall
  mono : e.mono ≤ e'.mono
  same : SameCounters e e'
  dated : Dated e'

variable {e e₁ e₂ : Engine} {userId : String}

theorem Dated.entry (h : Dated e) (userId : String) :
    (e.entry userId).dayStart ≤ dateNaive e.wall := by
  unfold Engine.entry
  rcases hu : e.activity userId with _ | a
  · exact le_refl _
  · exact h userId a hu

theorem Dated.modify (h : Dated e) {g : UserActivity → UserActivity}
    (hg : (g (e.entry userId)).dayStart ≤ dateNaive e.wall) : Dated (e.modify userId g) := by
  intro u a ha
  simp only [Engine.modify] at ha
  split at ha
  · cases ha
    exact hg
  · exact h u a ha

theorem Dated.passWall (h : Dated e) (d : Nat) : Dated (e.passWall d) := by
  intro u a ha
  refine (h u a ha).trans (dateNaive_mono ?_)
  simp only [Engine.passWall]
  omega

theorem Quiet.refl (h : Dated e) : Quiet e e := ⟨le_refl _, le_refl _, fun _ _ _ _ _ => rfl, h⟩

theorem Quiet.trans (h : Quiet e e₁) (h' : Quiet e₁ e₂) : Quiet e e₂ where
  wall := h.wall.trans h'.wall
  mono := h.mono.trans h'.mono
  same := fun u t t' ht ht' =>
    (h'.same u t t' ht ht').trans (h.same u t t' (h'.wall.trans ht) (h'.mono.trans ht'))
  dated := h'.dated

theorem Quiet.passWall (h : Quiet e e₁) (d : Nat) : Quiet e (e₁.passWall d) :=
  h.trans ⟨by simp only [Engine.passWall]; omega, le_refl _, fun _ _ _ _ _ => rfl, h.dated.passWall d⟩

theorem Quiet.passMono (h : Quiet e e₁) (d : Nat) : Quiet e (e₁.passMono d) :=
  h.trans ⟨le_refl _, by simp only [Engine.passMono]; omega, fun _ _ _ _ _ => rfl, h.dated⟩

theorem Quiet.adds (h : Quiet e e₁) (x y : UInt64) : Quiet e (e₁.adds x y) :=
  h.trans ⟨le_refl _, le_refl _, fun _ _ _ _ _ => rfl, h.dated⟩

/-- A write to an entry that does not show. -/
theorem Quiet.modify (h : Quiet e e₁) (userId : String) {g : UserActivity → UserActivity}
    (hday : (g (e₁.entry userId)).dayStart ≤ dateNaive e₁.wall)
    (hseen : ∀ wall mono, e₁.wall ≤ wall → e₁.mono ≤ mono →
      seen (g (e₁.entry userId)) wall mono = seen (e₁.entry userId) wall mono) :
    Quiet e (e₁.modify userId g) := by
  refine h.trans ⟨le_refl _, le_refl _, fun u wall mono hw hm => ?_, h.dated.modify hday⟩
  simp only [Engine.modify]
  by_cases hu : u = userId
  · subst hu
    rw [if_pos rfl, Option.getD_some, hseen wall mono hw hm]
    unfold Engine.entry
    rcases e₁.activity u with _ | a
    · exact seen_new.trans seen_new.symm
    · rfl
  · rw [if_neg hu]

theorem checkUserLimits_quiet (h : Dated e) (lim : Limits) (pace : Pace) (userId : String)
    (amount : UInt64) : Quiet e (checkUserLimits lim pace userId amount e).2 := by
  have h₁ : Quiet e ((e.passWall pace.entry).modify userId id) :=
    ((Quiet.refl h).passWall _).modify userId ((h.passWall _).entry userId) fun _ _ _ _ => rfl
  have h₂ := h₁.passMono pace.instant
  have h₃ := h₂.modify userId (g := (·.pruneOldIntents _)) (h₂.dated.entry userId)
    fun _ _ _ hm => seen_prune hm
  have h₄ := h₃.passWall pace.day
  have h₅ := h₄.modify userId (g := (·.resetIfNewDay _)) (Tracks.dayStart_reset _ _).le
    fun _ _ hw _ => seen_reset (h₄.dated.entry userId) hw
  simp only [checkUserLimits]
  split
  · exact h₃
  · split
    · exact h₅.adds _ _
    · exact h₅.adds _ _

theorem recordAcceptedIntent_dated (h : Dated e) (pace : Pace) (userId : String) (amount : UInt64) :
    Dated (recordAcceptedIntent pace userId amount e) := by
  have h₁ : Dated (((e.passWall pace.entry).modify userId id).passMono pace.instant) :=
    (h.passWall _).modify ((h.passWall _).entry userId)
  simp only [recordAcceptedIntent]
  generalize ((e.passWall pace.entry).modify userId id).passMono pace.instant = e₁ at h₁ ⊢
  have h₂ := (h₁.modify (g := (·.push e₁.mono)) (h₁.entry userId)).passWall pace.day
  generalize (e₁.modify userId (·.push e₁.mono)).passWall pace.day = e₂ at h₂ ⊢
  have h₃ : Dated (e₂.modify userId (·.resetIfNewDay e₂.wall)) :=
    h₂.modify (Tracks.dayStart_reset _ _).le
  exact h₃.modify (g := (·.add amount)) (h₃.entry userId)

end Counters

/-! ## Runs -/

inductive IntentReq where
  | create (r : Request)
  | cancel (env : Env) (intentId accountId : Uuid)
  | fail (env : Env) (intentId accountId : Uuid)
  | amend (env : Env) (m : Amend)

/-- The error of a call that has returned one. -/
def failure {α : Type} : Except IntentError α → Option IntentError
  | .error x => some x
  | .ok _ => none

/-- A call that leaves the counters alone. -/
def onWorld (f : Faults) {α : Type} (p : Task IntentError α) (e : Engine) :
    Option IntentError × Engine :=
  (failure (Call.exec f.acts p e.world).1, { e with world := (Call.exec f.acts p e.world).2 })

def IntentReq.exec (lim : Limits) (f : Faults) : IntentReq → Engine → Option IntentError × Engine
  | .create r, e =>
    let c := Call.exec (RiskEngine.exec lim r.check r.record f.acts) (RiskEngine.createIntent r) e
    (failure c.1, c.2)
  | .cancel env id a, e => onWorld f (cancelIntent env id a) e
  | .fail env id a, e => onWorld f (failIntent env id a) e
  | .amend env m, e =>
    onWorld f (amendIntent env m.intentId m.accountId m.newAmountIn m.newMinAmountOut
      m.newLimitPrice) e

/-- A call that returns an error leaves the tables and the counters as they were. -/
def FailsClean (lim : Limits) (f : Faults) (req : IntentReq) (e : Engine) : Prop :=
  ∀ x, (req.exec lim f e).1 = some x →
    SameTables e.world (req.exec lim f e).2.world ∧ SameCounters e (req.exec lim f e).2

/-- `create_intent` passes its checks, its transaction can be carried out, and then it is cut. -/
def TornCreate (lim : Limits) (f : Faults) (e : Engine) (r : Request) : Prop :=
  ∃ m s, r.validate = .ok m ∧ (checkUserLimits lim r.check r.userId r.amountIn e).1 = .ok () ∧
    parseAsset r.tokenIn = some s ∧ f.begin = none ∧
    f.Answers [.selectBalance r.accountId s,
      .lockFunds r.accountId s (asI64 r.amountIn) (r.env.now 1), .insertIntent r.intent] ∧
    asI64 r.amountIn ≤ e.world.avail (r.accountId, s) ∧
    Fits e.world r.accountId s (-asI64 r.amountIn) ∧
    (∀ j ∈ e.world.intents.rows, j.id ≠ r.intent.id) ∧
    f.Cut (f.bus.takes (.IntentCreated r.intent) = false)

def IntentReq.Torn (lim : Limits) (f : Faults) (e : Engine) : IntentReq → Prop
  | .create r => TornCreate lim f e r
  | .cancel env id a => TornClose f e.world env .Cancelled .IntentCancelled id a
  | .fail env id a => TornClose f e.world env .Failed .IntentFailed id a
  | .amend env m => TornAmend f e.world env m

section Requests

variable {lim : Limits} {f : Faults} {e : Engine} {r : Request}

theorem onWorld_clean_iff {α : Type} (p : Task IntentError α) :
    (∀ x, (onWorld f p e).1 = some x →
      SameTables e.world (onWorld f p e).2.world ∧ SameCounters e (onWorld f p e).2) ↔
      Atomic f p e.world := by
  unfold onWorld Atomic
  rcases Call.exec f.acts p e.world with ⟨res, w'⟩
  constructor
  · rintro h x w₁ hx
    obtain ⟨rfl, rfl⟩ := Prod.mk.inj hx
    exact (h x rfl).1
  · intro h x hx
    cases res with
    | ok v => cases hx
    | error y => exact ⟨h y w' rfl, fun _ _ _ _ _ => rfl⟩

theorem execTx_ok {t : Tx} {w w' : World} {v : t.Reply} (h : f.execTx t w = (.ok v, w')) :
    Call.exec f.execStmt (t.body .release) w = (.ok v, w') := by
  unfold Faults.execTx at h
  split at h
  · cases h
  rcases hb : Call.exec f.execStmt (t.body .release) w with ⟨res, w₁⟩
  rw [hb] at h
  cases res with
  | error x => cases h
  | ok v =>
    simp only [Faults.settle] at h
    split at h
    · exact h
    · cases h
    · cases h

theorem Dated.world (h : Dated e) (w : World) : Dated { e with world := w } := h

/-- A call that counts the intent has inserted it. -/
theorem createIntent_counters (h : Dated e) :
    Call.Ends (RiskEngine.exec lim r.check r.record f.acts)
      (fun e' => SameCounters e e' ∨ ¬ SameTables e.world e'.world) (RiskEngine.createIntent r) e := by
  have hquiet := checkUserLimits_quiet h lim r.check r.userId r.amountIn
  have hworld := checkUserLimits_world lim r.check r.userId r.amountIn e
  unfold RiskEngine.createIntent
  split
  · exact Call.ends_throw (.inl fun _ _ _ _ _ => rfl)
  refine Call.ends_bind (Call.ends_op (.inl hquiet.same)) fun _ e₁ hx₁ _ => ?_
  rw [exec_check_ok hx₁] at hquiet hworld
  refine Call.ends_orThrow_bind (.inl hquiet.same) fun s _ => ?_
  refine Call.ends_bind (Call.ends_op (.inl fun u t t' => hquiet.same u t t')) fun _ e₂ hx₂ _ => ?_
  -- the transaction is committed, and nothing after it touches the intents
  have hbody := execTx_ok (exec_act_ok hx₂)
  obtain ⟨-, -, -, t, ht, hw₂⟩ := exec_createBody.1 (Call.exec_mapErr_ok.1 hbody)
  rw [hworld] at ht
  have hrest : Call.Ends (RiskEngine.exec lim r.check r.record f.acts)
      (fun e' => e'.world.intents = t) (do
        record r.userId r.amountIn
        RiskEngine.act (.publish (.IntentCreated r.intent))
        let _ ← RiskEngine.trySend (.stream (.intentCreated r.intent))
        return r.intent) e₂ := by
    refine Call.ends_bind (Call.ends_op (congrArg World.intents hw₂)) fun _ e₃ _ h₃ => ?_
    refine Call.ends_bind (Call.ends_op ?_) fun _ e₄ _ h₄ => ?_
    · obtain ⟨l, hl⟩ := execAct_publish .release f.bus e₃.world (.IntentCreated r.intent)
      exact (congrArg World.intents hl).trans h₃
    refine Call.ends_bind (Call.ends_attempt ?_) fun _ _ _ h₅ => Call.ends_pure h₅
    obtain ⟨l, hl⟩ := execAct_stream .release f.bus e₄.world (.intentCreated r.intent)
    exact (congrArg World.intents hl).trans h₄
  exact .inr fun hsame => insert_ne ht (hrest.symm.trans hsame.1)

theorem validate_ok_iff {m : Market} {res : Except RiskRejection Unit} :
    validateIntent { r.view with userLimits := rejection res } r.params = .ok m ↔
      r.validate = .ok m ∧ res = .ok () := by
  rw [validateIntent_limits]
  show (r.validate >>= fun m => rejectWith (rejection res) >>= fun _ => pure m) = .ok m ↔ _
  rcases r.validate with x | m'
  · exact ⟨fun h => (nomatch h), fun h => (nomatch h.1)⟩
  rcases res with x | _
  · exact ⟨fun h => (nomatch h), fun h => (nomatch h.2)⟩
  · exact ⟨fun h => ⟨h, rfl⟩, fun h => h.1⟩

theorem create_clean_iff (h : Dated e) :
    FailsClean lim f (.create r) e ↔ ¬ TornCreate lim f e r := by
  have hcounters : Call.Ends (RiskEngine.exec lim r.check r.record f.acts)
      (fun e' => SameCounters e e' ∨ ¬ SameTables e.world e'.world) (RiskEngine.createIntent r) e :=
    createIntent_counters h
  have hforget := createIntent_forget lim r f.acts e
  have htorn : TornCreate lim f e r ↔ ∃ m s, validateIntent { r.view with
        userLimits := rejection (checkUserLimits lim r.check r.userId r.amountIn e).1 } r.params = .ok m ∧
      parseAsset r.tokenIn = some s ∧ f.begin = none ∧
      f.Answers [.selectBalance r.accountId s,
        .lockFunds r.accountId s (asI64 r.amountIn) (r.env.now 1), .insertIntent r.intent] ∧
      asI64 r.amountIn ≤ e.world.avail (r.accountId, s) ∧
      Fits e.world r.accountId s (-asI64 r.amountIn) ∧
      (∀ j ∈ e.world.intents.rows, j.id ≠ r.intent.id) ∧
      f.Cut (f.bus.takes (.IntentCreated r.intent) = false) := by
    unfold TornCreate
    simp only [validate_ok_iff, and_assoc]
  rw [htorn]
  refine Iff.trans ?_ (atomic_createIntent rfl)
  unfold Atomic
  rw [← hforget]
  unfold Call.Ends at hcounters
  unfold FailsClean
  simp only [IntentReq.exec]
  rcases hrun : Call.exec (RiskEngine.exec lim r.check r.record f.acts)
    (RiskEngine.createIntent r) e with ⟨res, e'⟩
  rw [hrun] at hcounters
  constructor
  · intro hclean x w' hx
    obtain ⟨rfl, rfl⟩ := Prod.mk.inj hx
    exact (hclean x rfl).1
  · intro hatomic x hx
    cases res with
    | ok v => cases hx
    | error y =>
      have hsame := hatomic y e'.world rfl
      exact ⟨hsame, hcounters.resolve_right (not_not.2 hsame)⟩

theorem clean_iff (h : Dated e) (req : IntentReq) :
    FailsClean lim f req e ↔ ¬ req.Torn lim f e := by
  cases req with
  | create r => exact create_clean_iff h
  | cancel env id a => exact (onWorld_clean_iff _).trans atomic_closeIntent
  | fail env id a => exact (onWorld_clean_iff _).trans atomic_closeIntent
  | amend env m => exact (onWorld_clean_iff _).trans atomic_amendIntent

theorem createIntent_dated (h : Dated e) :
    Call.Ends (RiskEngine.exec lim r.check r.record f.acts) Dated (RiskEngine.createIntent r) e := by
  unfold RiskEngine.createIntent
  split
  · exact Call.ends_throw h
  refine Call.ends_bind (Call.ends_op (checkUserLimits_quiet h ..).dated) fun _ e₁ _ h₁ => ?_
  refine Call.ends_orThrow_bind h₁ fun s _ => ?_
  refine Call.ends_bind (Call.ends_op (h₁.world _)) fun _ e₂ _ h₂ => ?_
  refine Call.ends_bind (Call.ends_op (recordAcceptedIntent_dated h₂ _ _ _)) fun _ e₃ _ h₃ => ?_
  refine Call.ends_bind (Call.ends_op (h₃.world _)) fun _ e₄ _ h₄ => ?_
  exact Call.ends_bind (Call.ends_attempt (h₄.world _)) fun _ _ _ h₅ => Call.ends_pure h₅

theorem dated_exec (h : Dated e) (req : IntentReq) : Dated (req.exec lim f e).2 := by
  cases req with
  | create r => exact createIntent_dated h
  | cancel env id a => exact h.world _
  | fail env id a => exact h.world _
  | amend env m => exact h.world _

/-- A call, or whatever the rest of the system does to the database between two calls. -/
inductive Move where
  | call (f : Faults) (req : IntentReq)
  | others (w : World)

def step (lim : Limits) (e : Engine) : Move → Engine
  | .call f req => (req.exec lim f e).2
  | .others w => { e with world := w }

def Move.Clean (lim : Limits) (e : Engine) : Move → Prop
  | .call f req => FailsClean lim f req e
  | .others _ => True

/-- The failure, if there is one, strikes before the commit takes effect. -/
def Move.InTime (lim : Limits) (e : Engine) : Move → Prop
  | .call f req => ¬ req.Torn lim f e
  | .others _ => True

/-- Along every run, the calls that return an error change nothing if and only if none of them is cut
off from a transaction that it has committed. -/
theorem failed_calls_clean_iff (lim : Limits) (w : World) (wall mono : Int) (ms : List Move) :
    Machine.Each (step lim) (Move.Clean lim) (.start w wall mono) ms ↔
      Machine.Each (step lim) (Move.InTime lim) (.start w wall mono) ms := by
  refine Machine.each_iff_of_keeps (I := Dated) ?_ ?_ (fun u a ha => (nomatch ha))
    (Machine.each_true _ ms)
  · rintro e (⟨f, req⟩ | w) h - -
    · exact dated_exec h req
    · exact h.world w
  · rintro e (⟨f, req⟩ | w) h -
    · exact clean_iff h req
    · exact Iff.rfl

/-- Redis takes nothing. -/
def downBus : Bus := ⟨fun _ => false, fun _ => false, "connection refused"⟩

/-- 100 USDC, and the event cannot be published. -/
def demoUnpublished : Move := .call (.none downBus) (.create (demoCall 1000 0).request)

/-- The caller gets an error, and the intent is there with its 100 USDC locked. -/
theorem unpublished_create_not_clean :
    (step ⟨10, 1000⟩ (.start lockDemo 0 0) demoUnpublished).world.locked (2, .USDC) = 100 ∧
      ¬ Machine.Each (step ⟨10, 1000⟩) (Move.Clean ⟨10, 1000⟩) (.start lockDemo 0 0)
        [demoUnpublished] := by
  refine ⟨by decide +kernel, fun h => ?_⟩
  have hclean : FailsClean ⟨10, 1000⟩ (.none downBus) (.create (demoCall 1000 0).request)
      (.start lockDemo 0 0) := h.1
  have hsame := (hclean (.RedisError "connection refused") (by decide +kernel)).1.1
  have hlen := congrArg (fun t => t.rows.length) hsame
  revert hlen
  decide +kernel

end Requests

end IntentX.IntentFaults
