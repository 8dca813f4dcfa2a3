import IntentX.Lib.Fault
import IntentX.Holdings

/-!
# Failures inside a balance request

A request of the balance service issues two to seven statements with no enclosing transaction, and
returns at the first that fails.  `Unchanged w w'` says that the ledger and every balance row are
as before, up to new rows worth 0.

A failure leaves the database unchanged unless it strikes after the first `UPDATE` of the request:
at the ledger entry of a deposit or a withdrawal, or at the second `UPDATE` or a ledger entry of a
transfer (`BalanceReq.TornAt`, in terms of the state before the call and the position of the
statement that fails).  The theorem says that these are exactly the positions that tear a request.
-/

namespace IntentX

open Lib

/-- The ledger is as before, and so are the balances, up to new rows worth 0. -/
def Unchanged (w w' : World) : Prop :=
  w'.ledgerEntries = w.ledgerEntries ∧
    ∃ zs, w'.balances.rows = w.balances.rows ++ zs ∧
      ∀ b ∈ zs, b.availableBalance = 0 ∧ b.lockedBalance = 0

theorem Unchanged.refl (w : World) : Unchanged w w := ⟨rfl, [], by simp, by simp⟩

/-- Rows worth 0 add nothing to a cell. -/
theorem Unchanged.avail {w w' : World} (h : Unchanged w w') (k : Cell) : w'.avail k = w.avail k := by
  obtain ⟨-, zs, hr, hz⟩ := h
  have hzero : (zs.map fun b => only k b.key * b.availableBalance).sum = 0 := by
    apply List.sum_eq_zero
    intro x hx
    obtain ⟨b, hb, rfl⟩ := List.mem_map.1 hx
    rw [(hz b hb).1, mul_zero]
  unfold World.avail World.availSum Table.sum
  rw [hr, List.map_append, List.sum_append, hzero, add_zero]

/-! ## Finding or creating the row -/

/-- The row `find_or_create` inserts. -/
def newRow (env : Env) (a : Uuid) (s : Asset) : Balance :=
  ⟨env.uuid 0, a, s, 0, 0, env.now 0⟩

/-- A row with this id can be inserted for the account. -/
def World.CanCreate (w : World) (id a : Uuid) : Prop :=
  (∃ acc ∈ w.accounts, acc.id = a) ∧ ∀ b ∈ w.balances.rows, b.id ≠ id

/-- `find_or_create` goes through: it answers `b` after `c` statements and leaves `w'`. -/
inductive Found (env : Env) (a : Uuid) (s : Asset) (w : World) : Balance → Nat → World → Prop
  | row {b : Balance} (h : w.balance a s = some b) : Found env a s w b 1 w
  | new {t} (h : w.balance a s = none) (hc : w.CanCreate (env.uuid 0) a)
      (ht : w.balances.insert (newRow env a s) = some t) :
      Found env a s w (newRow env a s) 2 { w with balances := t }

section

variable {ar : Arith} {env : Env} {a : Uuid} {s : Asset} {w w' w₁ : World} {b : Balance}
  {bad : SqlError} {n c : Nat}

theorem execStmt_insert_new (ar : Arith) (hnone : w.balance a s = none) (hc : w.CanCreate (env.uuid 0) a) :
    ∃ t, w.balances.insert (newRow env a s) = some t ∧
      execStmt ar (.insertBalance (newRow env a s)) w = (.ok (), { w with balances := t }) := by
  have hfree : (w.balances.insert (newRow env a s)).isSome = true :=
    Table.insert_isSome_iff.2 fun x hx => ⟨hc.2 x hx, World.balance_none_iff.1 hnone x hx⟩
  obtain ⟨t, ht⟩ := Option.isSome_iff_exists.1 hfree
  have hacc : (w.accounts.any fun x => x.id == (newRow env a s).accountId) = true := by
    simpa [newRow] using hc.1
  exact ⟨t, ht, by simp [execStmt, hacc, ht, inserted]⟩

theorem execStmt_insert_refused (ar : Arith) (s : Asset) (hc : ¬ w.CanCreate (env.uuid 0) a) :
    ∃ e, execStmt ar (.insertBalance (newRow env a s)) w = (.error e, w) := by
  simp only [execStmt]
  split
  · next hacc =>
    have hnone : w.balances.insert (newRow env a s) = none := by
      refine Option.not_isSome_iff_eq_none.1 fun hsome => hc ⟨by simpa [newRow] using hacc, ?_⟩
      exact fun b hb => (Table.insert_isSome_iff.1 hsome b hb).1
    exact ⟨_, by rw [hnone]; rfl⟩
  · exact ⟨_, rfl⟩

theorem Found.unchanged (h : Found env a s w b c w₁) : Unchanged w w₁ := by
  cases h with
  | row h => exact Unchanged.refl w
  | new h hc ht =>
    refine ⟨rfl, [newRow env a s], Table.rows_insert ht, ?_⟩
    intro b hb
    rw [List.mem_singleton.1 hb]
    exact ⟨rfl, rfl⟩

theorem Found.spec (h : Found env a s w b c w₁) :
    b ∈ w₁.balances.rows ∧ b.key = (a, s) ∧ b.availableBalance = w.avail (a, s) := by
  cases h with
  | row h =>
    obtain ⟨hm, hk⟩ := World.balance_some_iff.1 h
    exact ⟨hm, hk, by rw [← hk, World.avail_of_mem hm]⟩
  | new h hc ht =>
    exact ⟨(Table.mem_insert ht).2 (.inr rfl), rfl,
      (World.avail_of_none (World.balance_none_iff.1 h)).symm⟩

/-- When `find_or_create` goes through, in terms of the state before it. -/
theorem Found.exists_iff (P : Nat → Prop) :
    (∃ b c w₁, Found env a s w b c w₁ ∧ P c) ↔
      ((w.balance a s).isSome = true ∧ P 1) ∨
        (w.balance a s = none ∧ w.CanCreate (env.uuid 0) a ∧ P 2) := by
  constructor
  · rintro ⟨b, c, w₁, h, hP⟩
    cases h with
    | row h => exact .inl ⟨by rw [h]; rfl, hP⟩
    | new h hc ht => exact .inr ⟨h, hc, hP⟩
  · rintro (⟨h, hP⟩ | ⟨h, hc, hP⟩)
    · obtain ⟨b, hb⟩ := Option.isSome_iff_exists.1 h
      exact ⟨b, 1, w, .row hb, hP⟩
    · obtain ⟨t, ht, -⟩ := execStmt_insert_new .exact h hc
      exact ⟨_, 2, _, .new h hc ht, hP⟩

/-- `find_or_create` within a request, as the two statements it issues. -/
theorem findOrCreate_bind {α : Type} (g : Balance → Sql BalanceError α) :
    (Call.mapErr .DbError (findOrCreate env a s) >>= g) =
      (query (.selectBalance a s) .DbError >>= fun existing =>
        match existing with
        | some b => g b
        | none => query (.insertBalance (newRow env a s)) .DbError >>= fun _ => g (newRow env a s)) := by
  unfold findOrCreate
  rw [Call.mapErr_bind, Call.mapErr_op, bind_assoc]
  congr 1
  funext existing
  cases existing with
  | some b => rfl
  | none =>
    show Call.mapErr _ (_ >>= _) >>= _ = _
    rw [Call.mapErr_bind, Call.mapErr_op, bind_assoc]
    rfl

/-- A fault at or after the row is there is a fault of the rest; before that, the request ends with
nothing done. -/
theorem Found.execFault {α : Type} (h : Found env a s w b c w₁) (hn : c ≤ n)
    (g : Balance → Sql BalanceError α) :
    Call.execFault (execStmt ar) bad n (Call.mapErr .DbError (findOrCreate env a s) >>= g) w =
      Call.execFault (execStmt ar) bad (n - c) (g b) w₁ := by
  rw [findOrCreate_bind]
  cases h with
  | row h =>
    obtain ⟨m, rfl⟩ : ∃ m, n = m + 1 := ⟨n - 1, by omega⟩
    rw [Call.execFault_op_succ]
    simp only [execStmt, h, Nat.add_sub_cancel]
  | new h hc ht =>
    obtain ⟨m, rfl⟩ : ∃ m, n = m + 1 + 1 := ⟨n - 2, by omega⟩
    obtain ⟨t', ht', hins⟩ := execStmt_insert_new ar h hc
    cases ht.symm.trans ht'
    rw [Call.execFault_op_succ]
    simp only [execStmt, h]
    rw [Call.execFault_op_succ, hins]
    rfl

theorem execFault_findOrCreate {α : Type} (g : Balance → Sql BalanceError α) :
    (∃ e, Call.execFault (execStmt ar) bad n
      (Call.mapErr .DbError (findOrCreate env a s) >>= g) w = (.error e, w)) ∨
    ∃ b c w₁, Found env a s w b c w₁ ∧ c ≤ n := by
  cases n with
  | zero =>
    rw [findOrCreate_bind]
    exact .inl ⟨_, Call.execFault_op_zero _ _ _⟩
  | succ n =>
    rcases hb : w.balance a s with _ | b
    · by_cases hc : w.CanCreate (env.uuid 0) a
      · cases n with
        | zero =>
          rw [findOrCreate_bind, Call.execFault_op_succ]
          simp only [execStmt, hb]
          exact .inl ⟨_, Call.execFault_op_zero _ _ _⟩
        | succ n =>
          obtain ⟨t, ht, -⟩ := execStmt_insert_new ar hb hc
          exact .inr ⟨_, 2, _, .new hb hc ht, by omega⟩
      · left
        rw [findOrCreate_bind, Call.execFault_op_succ]
        simp only [execStmt, hb]
        cases n with
        | zero => exact ⟨_, Call.execFault_op_zero _ _ _⟩
        | succ n =>
          obtain ⟨e, he⟩ := execStmt_insert_refused ar s hc
          rw [Call.execFault_op_succ, he]
          exact ⟨_, rfl⟩
    · exact .inr ⟨b, 1, w, .row hb, by omega⟩

/-! ## Writing the row and the ledger -/

/-- The database after `UPDATE balances … WHERE id`. -/
def World.setRow (w : World) (b : Balance) : World := (execStmt .release (.updateBalance b) w).2

/-- The database after `INSERT INTO ledger_entries`. -/
def World.addEntry (w : World) (e : LedgerEntry) : World :=
  { w with ledgerEntries := w.ledgerEntries ++ [e] }

section Writes

variable {α : Type}

theorem execFault_updateRow_zero (b : Balance) (g : Unit → Sql BalanceError α) :
    Call.execFault (execStmt ar) bad 0 (Call.mapErr .DbError (updateRow b) >>= g) w =
      (.error (.DbError bad), w) := by
  unfold updateRow
  rw [Call.mapErr_op]
  rfl

theorem execFault_updateRow_succ (b : Balance) (g : Unit → Sql BalanceError α) :
    Call.execFault (execStmt ar) bad (n + 1) (Call.mapErr .DbError (updateRow b) >>= g) w =
      Call.execFault (execStmt ar) bad n (g ()) (w.setRow b) := by
  unfold updateRow
  rw [Call.mapErr_op, Call.execFault_op_succ]
  rfl

/-- The entry `create_entry` inserts. -/
def newEntry (env : Env) (a : Uuid) (s : Asset) (x : Int) (t : EntryType) (r : ReferenceType)
    (ref : Uuid) : LedgerEntry :=
  ⟨env.uuid 0, a, s, x, t, r, ref, env.now 0⟩

variable {x : Int} {t : EntryType} {r : ReferenceType} {ref : Uuid} {f : LedgerError → BalanceError}

theorem createEntry_bind (g : LedgerEntry → Sql BalanceError α) :
    (Call.mapErr f (createEntry env a s x t r ref) >>= g) =
      (query (.insertLedger (newEntry env a s x t r ref)) (fun e => f (.DbError e)) >>= fun _ =>
        g (newEntry env a s x t r ref)) := by
  unfold createEntry
  rw [Call.mapErr_bind, Call.mapErr_op, bind_assoc]
  rfl

theorem execFault_createEntry_zero (g : LedgerEntry → Sql BalanceError α) :
    Call.execFault (execStmt ar) bad 0 (Call.mapErr f (createEntry env a s x t r ref) >>= g) w =
      (.error (f (.DbError bad)), w) := by
  rw [createEntry_bind]
  rfl

theorem execFault_createEntry_succ (g : LedgerEntry → Sql BalanceError α) :
    Call.execFault (execStmt ar) bad (n + 1) (Call.mapErr f (createEntry env a s x t r ref) >>= g) w =
      Call.execFault (execStmt ar) bad n (g (newEntry env a s x t r ref))
        (w.addEntry (newEntry env a s x t r ref)) := by
  rw [createEntry_bind, Call.execFault_op_succ]
  rfl

end Writes

/-- Writing a row moves its cell to the new contents. -/
theorem setRow_avail {b : Balance} (b' : Balance) (hb : b ∈ w.balances.rows) (hid : b'.id = b.id) :
    (w.setRow b').avail b.key = b'.availableBalance := by
  have hm := updateRow_ok hb (show _ = (_, w.setRow b') from rfl) hid
  rw [hm.avail_self, World.avail_of_mem hb]
  omega

theorem setRow_avail_ne {b : Balance} (b' : Balance) (hb : b ∈ w.balances.rows)
    (hid : b'.id = b.id) {k : Cell} (hk : b.key ≠ k) : (w.setRow b').avail k = w.avail k := by
  have hm := updateRow_ok hb (show _ = (_, w.setRow b') from rfl) hid
  exact hm.avail_ne hk

/-- A 64-bit amount that is not 0 changes a 64-bit balance, wrapped around or not. -/
theorem wrapI64_add_ne {v x : Int} (h0 : x ≠ 0) (hx : -2 ^ 63 ≤ x ∧ x < 2 ^ 63) :
    wrapI64 (v + x) ≠ v := by
  intro he
  have hmod := Int.bmod_emod (x := v + x) (m := 2 ^ 64)
  unfold wrapI64 at he
  rw [he] at hmod
  omega

/-- A 64-bit balance that covers a positive amount is changed by taking it out. -/
theorem wrapI64_sub_ne {v x : Int} (h0 : 0 < x) (hcov : x ≤ v) : wrapI64 (v - x) ≠ v := by
  intro hsame
  have hr := wrapI64_range (v - x)
  have hex : wrapI64 (v - x) = v - x := wrapI64_of_inI64 (by omega)
  omega

end

/-! ## Torn requests -/

/-- From `w`, with its `n`-th statement failing, the program returns an error in a state that is
not `w₀` unchanged. -/
def Tears {α : Type} (bad : SqlError) (w₀ : World) (n : Nat) (w : World) (p : Sql BalanceError α) :
    Prop :=
  ∃ e w', Call.execFault (execStmt .release) bad n p w = (.error e, w') ∧ ¬ Unchanged w₀ w'

section Tears

variable {α : Type} {env : Env} {a : Uuid} {s : Asset} {x : Int} {w₀ w : World} {b : Balance}
  {bad : SqlError} {n : Nat}

theorem tears_of_eq {p : Sql BalanceError α} {e : BalanceError} {w' : World}
    (h : Call.execFault (execStmt .release) bad n p w = (.error e, w')) :
    Tears bad w₀ n w p ↔ ¬ Unchanged w₀ w' := by
  unfold Tears
  rw [h]
  constructor
  · rintro ⟨e, w', he, hch⟩
    cases he
    exact hch
  · exact fun hch => ⟨e, w', rfl, hch⟩

theorem tears_pure (v : α) : ¬ Tears bad w₀ n w (pure v : Sql BalanceError α) := by
  rintro ⟨e, w', he, -⟩
  rw [Call.execFault_pure] at he
  cases he

/-- A guard that does not hold ends the program where it stands. -/
theorem tears_failIf (c : Prop) [Decidable c] (e : BalanceError) (g : Unit → Sql BalanceError α)
    (hu : Unchanged w₀ w) :
    Tears bad w₀ n w (Call.failIf c e >>= g) ↔ ¬ c ∧ Tears bad w₀ n w (g ()) := by
  rw [Call.failIf_bind]
  split
  · next h => simp [tears_of_eq (Call.execFault_throw e), hu, h]
  · next h => simp [h]

theorem tears_findOrCreate (g : Balance → Sql BalanceError α) (hu : Unchanged w₀ w) :
    Tears bad w₀ n w (Call.mapErr .DbError (findOrCreate env a s) >>= g) ↔
      ∃ b c w₁, Found env a s w b c w₁ ∧ c ≤ n ∧ Tears bad w₀ (n - c) w₁ (g b) := by
  constructor
  · rintro ⟨e, w', he, hch⟩
    rcases execFault_findOrCreate g with ⟨e', hA⟩ | ⟨b, c, w₁, hf, hcn⟩
    · rw [hA] at he
      cases he
      exact absurd hu hch
    · rw [hf.execFault hcn] at he
      exact ⟨b, c, w₁, hf, hcn, e, w', he, hch⟩
  · rintro ⟨b, c, w₁, hf, hcn, e, w', he, hch⟩
    exact ⟨e, w', by rw [hf.execFault hcn, he], hch⟩

theorem tears_updateRow (g : Unit → Sql BalanceError α) :
    Tears bad w₀ n w (Call.mapErr .DbError (updateRow b) >>= g) ↔
      (n = 0 ∧ ¬ Unchanged w₀ w) ∨ ∃ m, n = m + 1 ∧ Tears bad w₀ m (w.setRow b) (g ()) := by
  cases n with
  | zero => simp [tears_of_eq (execFault_updateRow_zero b g)]
  | succ n => simp [Tears, execFault_updateRow_succ]

theorem tears_createEntry {t : EntryType} {r : ReferenceType} {ref : Uuid}
    {f : LedgerError → BalanceError} (g : LedgerEntry → Sql BalanceError α) :
    Tears bad w₀ n w (Call.mapErr f (createEntry env a s x t r ref) >>= g) ↔
      (n = 0 ∧ ¬ Unchanged w₀ w) ∨
      ∃ m, n = m + 1 ∧ Tears bad w₀ m (w.addEntry (newEntry env a s x t r ref))
        (g (newEntry env a s x t r ref)) := by
  cases n with
  | zero => simp [tears_of_eq (execFault_createEntry_zero g)]
  | succ n => simp [Tears, execFault_createEntry_succ]

end Tears

/-! ## Which positions tear a request -/

section Requests

variable {env : Env} {a : Uuid} {s : Asset} {x : Int} {w w₁ : World} {b b' : Balance}
  {bad : SqlError} {n c : Nat}

/-- A row rewritten with another available balance is a trace. -/
theorem Found.changed (h : Found env a s w b c w₁) (hid : b'.id = b.id)
    (hne : b'.availableBalance ≠ b.availableBalance) : ¬ Unchanged w (w₁.setRow b') := by
  intro hu
  obtain ⟨hmem, hkey, hav⟩ := h.spec
  have hset := hu.avail b.key
  rw [setRow_avail b' hmem hid, hkey, ← hav] at hset
  exact hne hset

theorem deposit_tears_iff (hx : x < 2 ^ 63) :
    Tears bad w n w ((BalanceReq.deposit a s x).call .release env) ↔
      0 < x ∧ ∃ b c w₁, Found env a s w b c w₁ ∧ n = c + 1 := by
  simp only [BalanceReq.call, deposit, bind_assoc, pure_bind]
  rw [tears_failIf _ _ _ (.refl w), tears_findOrCreate _ (.refl w)]
  simp only [tears_updateRow, tears_createEntry, tears_pure]
  constructor
  · rintro ⟨hpos, b, c, w₁, hf, hcn, ⟨-, hch⟩ | ⟨m, hm, ⟨rfl, -⟩ | ⟨_, -, hfalse⟩⟩⟩
    · exact absurd hf.unchanged hch
    · exact ⟨by omega, b, c, w₁, hf, by omega⟩
    · exact hfalse.elim
  · rintro ⟨hpos, b, c, w₁, hf, rfl⟩
    refine ⟨by omega, b, c, w₁, hf, by omega, .inr ⟨0, by omega, .inl ⟨rfl, hf.changed rfl ?_⟩⟩⟩
    exact wrapI64_add_ne (by omega) (by omega)

theorem withdraw_tears_iff :
    Tears bad w n w ((BalanceReq.withdraw a s x).call .release env) ↔
      0 < x ∧ x ≤ w.avail (a, s) ∧ ∃ b c w₁, Found env a s w b c w₁ ∧ n = c + 1 := by
  simp only [BalanceReq.call, withdraw, bind_assoc, pure_bind]
  rw [tears_failIf _ _ _ (.refl w), tears_findOrCreate _ (.refl w)]
  constructor
  · rintro ⟨hpos, b, c, w₁, hf, hcn, ht⟩
    rw [tears_failIf _ _ _ hf.unchanged] at ht
    simp only [tears_updateRow, tears_createEntry, tears_pure] at ht
    have hav := hf.spec.2.2
    obtain ⟨hcov, ⟨-, hch⟩ | ⟨m, hm, ⟨rfl, -⟩ | ⟨_, -, hfalse⟩⟩⟩ := ht
    · exact absurd hf.unchanged hch
    · exact ⟨by omega, by omega, b, c, w₁, hf, by omega⟩
    · exact hfalse.elim
  · rintro ⟨hpos, hcov, b, c, w₁, hf, rfl⟩
    refine ⟨by omega, b, c, w₁, hf, by omega, ?_⟩
    rw [tears_failIf _ _ _ hf.unchanged]
    simp only [tears_updateRow, tears_createEntry, tears_pure]
    have hav := hf.spec.2.2
    refine ⟨by omega, .inr ⟨0, by omega, .inl ⟨rfl, hf.changed rfl ?_⟩⟩⟩
    exact wrapI64_sub_ne hpos (by omega)

/-- Locking and unlocking end with their one `UPDATE`: nothing can fail after it. -/
theorem not_tears_of_last_update (short : Balance → Prop) [DecidablePred short] {e : BalanceError}
    {row : Balance → Balance} :
    ¬ Tears bad w n w (Call.failIf (x ≤ 0) .InvalidAmount >>= fun _ =>
      Call.mapErr .DbError (findOrCreate env a s) >>= fun b => Call.failIf (short b) e >>= fun _ =>
        Call.mapErr .DbError (updateRow (row b)) >>= fun _ => (pure [row b] : Sql BalanceError (List Balance))) := by
  rw [tears_failIf _ _ _ (.refl w), tears_findOrCreate _ (.refl w)]
  rintro ⟨-, b, c, w₁, hf, -, ht⟩
  rw [tears_failIf _ _ _ hf.unchanged, tears_updateRow] at ht
  simp only [tears_pure] at ht
  obtain ⟨-, ⟨-, hch⟩ | ⟨_, -, hfalse⟩⟩ := ht
  · exact hch hf.unchanged
  · exact hfalse

theorem lockBalance_not_tears :
    ¬ Tears bad w n w ((BalanceReq.lockBalance a s x).call .release env) := by
  simp only [BalanceReq.call, lockBalance, bind_assoc, pure_bind]
  exact not_tears_of_last_update fun b => b.availableBalance < x

theorem unlockBalance_not_tears :
    ¬ Tears bad w n w ((BalanceReq.unlockBalance a s x).call .release env) := by
  simp only [BalanceReq.call, unlockBalance, bind_assoc, pure_bind]
  exact not_tears_of_last_update fun b => b.lockedBalance < x

theorem Found.keeps (h : Found env a s w b c w₁) {r : Balance} (hr : r ∈ w.balances.rows) :
    r ∈ w₁.balances.rows := by
  cases h with
  | row h => exact hr
  | new h hc ht => exact (Table.mem_insert ht).2 (.inl hr)

/-- Once the first row of a transfer is written, the sender's cell stays changed: the second write
goes to another cell, or adds the amount where it was to be taken out. -/
theorem transfer_changed {dst : Uuid} {b₁ b₂ : Balance} (now : Int) (h0 : 0 < x) (hx : x < 2 ^ 63)
    (hb₁ : w.balance a s = some b₁) (hcov : x ≤ b₁.availableBalance)
    (hf : Found env dst s w b₂ c w₁) :
    let w₂ := w₁.setRow { b₁ with
      availableBalance := wrapI64 (b₁.availableBalance - x), updatedAt := now }
    w₂.avail (a, s) ≠ w.avail (a, s) ∧
      (w₂.setRow { b₂ with
        availableBalance := wrapI64 (b₂.availableBalance + x), updatedAt := now }).avail (a, s) ≠
        w.avail (a, s) := by
  intro w₂
  obtain ⟨hmem₁, hkey₁⟩ := World.balance_some_iff.1 hb₁
  obtain ⟨hmem₂, hkey₂, hav₂⟩ := hf.spec
  have hav₁ : w.avail (a, s) = b₁.availableBalance := by rw [← hkey₁, World.avail_of_mem hmem₁]
  have hset₁ : w₂.avail (a, s) = wrapI64 (b₁.availableBalance - x) := by
    rw [← hkey₁]
    exact setRow_avail _ (hf.keeps hmem₁) rfl
  refine ⟨by rw [hset₁, hav₁]; exact wrapI64_sub_ne h0 hcov, ?_⟩
  obtain ⟨b₃, hmem₃, hid₃, hkey₃⟩ := updateRow_row hmem₂
    (show Call.exec (execStmt .release) (updateRow _) w₁ = (.ok (), w₂) from rfl)
  by_cases hsame : dst = a
  · subst hsame
    have hset₂ := setRow_avail { b₂ with
      availableBalance := wrapI64 (b₂.availableBalance + x), updatedAt := now } hmem₃ hid₃.symm
    rw [hkey₃, hkey₂] at hset₂
    rw [hset₂, hav₂]
    exact wrapI64_add_ne (by omega) (by omega)
  · have hne : b₃.key ≠ (a, s) := by
      rw [hkey₃, hkey₂]
      exact fun he => hsame (congrArg Prod.fst he)
    have hset₂ := setRow_avail_ne { b₂ with
      availableBalance := wrapI64 (b₂.availableBalance + x), updatedAt := now } hmem₃ hid₃.symm hne
    rw [hset₂, hset₁, hav₁]
    exact wrapI64_sub_ne h0 hcov

theorem transfer_tears_iff {dst : Uuid} (hx : x < 2 ^ 63) :
    Tears bad w n w ((BalanceReq.transfer a dst s x).call .release env) ↔
      0 < x ∧ x ≤ w.avail (a, s) ∧
        ∃ b c w₁, Found (env.drop 1) dst s w b c w₁ ∧ c + 2 ≤ n ∧ n ≤ c + 4 := by
  simp only [BalanceReq.call, transfer, createDoubleEntry, Call.mapErr_bind, Call.mapErr_pure,
    bind_assoc, pure_bind]
  rw [tears_failIf _ _ _ (.refl w), tears_findOrCreate _ (.refl w)]
  constructor
  · rintro ⟨hpos, b₁, c₁, w₁, hf₁, hn₁, ht⟩
    rw [tears_failIf _ _ _ hf₁.unchanged, tears_findOrCreate _ hf₁.unchanged] at ht
    obtain ⟨hcov, b₂, c₂, w₂, hf₂, hn₂, ht⟩ := ht
    have hav := hf₁.spec.2.2
    -- the sender's row was there: a new row would not cover the amount
    cases hf₁ with
    | new h hc ht => simp [newRow] at hcov; omega
    | row h =>
      refine ⟨by omega, by omega, b₂, c₂, w₂, hf₂, ?_⟩
      simp only [tears_updateRow, tears_createEntry, tears_pure] at ht
      obtain ⟨-, hch⟩ | ⟨m₁, hm₁, ⟨rfl, -⟩ | ⟨m₂, rfl, ⟨rfl, -⟩ | ⟨m₃, rfl, ⟨rfl, -⟩ | ⟨_, -, hfalse⟩⟩⟩⟩ := ht
      · exact absurd hf₂.unchanged hch
      · omega
      · omega
      · omega
      · exact hfalse.elim
  · rintro ⟨hpos, hcov, b₂, c, w₁, hf, hlo, hhi⟩
    obtain ⟨b₁, hb₁⟩ : ∃ b₁, w.balance a s = some b₁ := by
      rcases hb : w.balance a s with _ | b₁
      · have := World.avail_of_none (World.balance_none_iff.1 hb)
        omega
      · exact ⟨b₁, rfl⟩
    obtain ⟨hmem₁, hkey₁⟩ := World.balance_some_iff.1 hb₁
    have hav₁ : w.avail (a, s) = b₁.availableBalance := by rw [← hkey₁, World.avail_of_mem hmem₁]
    refine ⟨by omega, b₁, 1, w, .row hb₁, by omega, ?_⟩
    rw [tears_failIf _ _ _ (.refl w), tears_findOrCreate _ (.refl w)]
    refine ⟨by omega, b₂, c, w₁, hf, by omega, ?_⟩
    simp only [tears_updateRow, tears_createEntry, tears_pure]
    obtain ⟨hch₁, hch₂⟩ := transfer_changed (env.now 2) hpos hx hb₁ (by omega) hf
    have hch₁' := fun hu : Unchanged w _ => hch₁ (hu.avail (a, s))
    have hch₂' := fun hu : Unchanged w _ => hch₂ (hu.avail (a, s))
    right
    obtain rfl | rfl | rfl : n = c + 2 ∨ n = c + 3 ∨ n = c + 4 := by omega
    · exact ⟨0, by omega, .inl ⟨rfl, hch₁'⟩⟩
    · exact ⟨1, by omega, .inr ⟨0, rfl, .inl ⟨rfl, hch₂'⟩⟩⟩
    · refine ⟨2, by omega, .inr ⟨1, rfl, .inr ⟨0, rfl, .inl ⟨rfl, ?_⟩⟩⟩⟩
      exact fun hu => hch₂ (hu.avail (a, s))

end Requests

/-! ## Atomicity -/

def BalanceReq.amount : BalanceReq → Int
  | .deposit _ _ x | .withdraw _ _ x | .lockBalance _ _ x | .unlockBalance _ _ x
  | .transfer _ _ _ x => x

/-- The `n`-th statement of the request comes after its first `UPDATE`: it is the ledger entry of
a deposit or withdrawal that goes through, or the second `UPDATE` or a ledger entry of a transfer.
A deposit and the receiving side of a transfer issue one statement more when the row is new. -/
def BalanceReq.TornAt (env : Env) (w : World) (n : Nat) : BalanceReq → Prop
  | .deposit a s x => 0 < x ∧
      (((w.balance a s).isSome = true ∧ n = 2) ∨
        (w.balance a s = none ∧ w.CanCreate (env.uuid 0) a ∧ n = 3))
  | .withdraw a s x => 0 < x ∧ x ≤ w.avail (a, s) ∧ n = 2
  | .lockBalance .. | .unlockBalance .. => False
  | .transfer a dst s x => 0 < x ∧ x ≤ w.avail (a, s) ∧
      (((w.balance dst s).isSome = true ∧ 3 ≤ n ∧ n ≤ 5) ∨
        (w.balance dst s = none ∧ w.CanCreate (env.uuid 1) dst ∧ 4 ≤ n ∧ n ≤ 6))

theorem isSome_of_covered {w : World} {a : Uuid} {s : Asset} {x : Int} (h0 : 0 < x)
    (hcov : x ≤ w.avail (a, s)) : (w.balance a s).isSome = true := by
  rcases hb : w.balance a s with _ | b
  · have hz := World.avail_of_none (World.balance_none_iff.1 hb)
    omega
  · rfl

/-- The positions that tear a request are those of `TornAt`. -/
theorem tears_iff_tornAt (env : Env) (bad : SqlError) (req : BalanceReq) (w : World) (n : Nat)
    (hx : req.amount < 2 ^ 63) :
    Tears bad w n w (req.call .release env) ↔ req.TornAt env w n := by
  cases req with
  | deposit a s x =>
    have hx' : x < 2 ^ 63 := hx
    rw [deposit_tears_iff hx', Found.exists_iff]
    rfl
  | withdraw a s x =>
    rw [withdraw_tears_iff, Found.exists_iff]
    unfold BalanceReq.TornAt
    constructor
    · rintro ⟨h0, hcov, ⟨-, rfl⟩ | ⟨hnone, -⟩⟩
      · exact ⟨h0, hcov, rfl⟩
      · rw [Option.eq_none_iff_forall_ne_some] at hnone
        obtain ⟨b, hb⟩ := Option.isSome_iff_exists.1 (isSome_of_covered h0 hcov)
        exact absurd hb (hnone b)
    · rintro ⟨h0, hcov, rfl⟩
      exact ⟨h0, hcov, .inl ⟨isSome_of_covered h0 hcov, rfl⟩⟩
  | lockBalance a s x => exact iff_of_false lockBalance_not_tears id
  | unlockBalance a s x => exact iff_of_false unlockBalance_not_tears id
  | transfer a dst s x =>
    have hx' : x < 2 ^ 63 := hx
    rw [transfer_tears_iff hx', Found.exists_iff]
    rfl

/-- **When a balance request is atomic on failure.**  Whatever statement fails, a request that
returns an error has left ledger and balances unchanged, exactly when that statement does not come
after the first `UPDATE` of the request. -/
theorem balance_request_atomic_iff (env : Env) (bad : SqlError) (req : BalanceReq) (w : World)
    (n : Nat) (hx : req.amount < 2 ^ 63) :
    (∀ e w', Call.execFault (execStmt .release) bad n (req.call .release env) w = (.error e, w') →
      Unchanged w w') ↔ ¬ req.TornAt env w n := by
  rw [← tears_iff_tornAt env bad req w n hx]
  unfold Tears
  constructor
  · rintro h ⟨e, w', he, hch⟩
    exact hch (h e w' he)
  · intro h e w' he
    by_contra hch
    exact h ⟨e, w', he, hch⟩

/-- An account without balances. -/
def oneAccount : World := { World.empty with accounts := [⟨2, 10⟩] }

def atomicityEnv : Env := ⟨fun i => 1000 + i, fun _ => 0⟩

/-- A deposit of 100 whose `n`-th statement fails. -/
def faultyDeposit (n : Nat) : Except BalanceError (List Balance) × World :=
  Call.execFault (execStmt .release) .io n
    ((BalanceReq.deposit 2 .USDC 100).call .release atomicityEnv) oneAccount

/-- Its third statement is the `UPDATE`; the deposit is undone when it fails. -/
theorem deposit_atomic_at_update :
    (faultyDeposit 2).1 = .error (.DbError .io) ∧ Unchanged oneAccount (faultyDeposit 2).2 := by
  have herr : (faultyDeposit 2).1 = .error (.DbError .io) := by decide +kernel
  refine ⟨herr, (balance_request_atomic_iff atomicityEnv .io (.deposit 2 .USDC 100) oneAccount 2
    (by decide)).2 ?_ _ _ (Prod.ext herr rfl)⟩
  rintro ⟨-, ⟨hsome, -⟩ | ⟨-, -, hn⟩⟩
  · exact absurd hsome (by decide)
  · exact absurd hn (by decide)

/-- The fourth is its ledger entry; when it fails the deposit returns an error with 100 credited. -/
theorem deposit_torn_at_ledger :
    ¬ ∀ (env : Env) (bad : SqlError) (req : BalanceReq) (w : World) (n : Nat) (e : BalanceError)
        (w' : World),
      Call.execFault (execStmt .release) bad n (req.call .release env) w = (.error e, w') →
      Unchanged w w' := by
  intro h
  have hu := h atomicityEnv .io (.deposit 2 .USDC 100) oneAccount 3
    (.LedgerError "Database error: error communicating with database") _
    (Prod.ext (by decide +kernel) rfl)
  have hav := hu.avail (2, .USDC)
  revert hav
  decide +kernel

end IntentX
