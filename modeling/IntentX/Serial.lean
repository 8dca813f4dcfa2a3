import IntentX.Lib.Interleave
import IntentX.Balances

/-!
# Two balance requests at the same time

The statements of a balance request act on single cells: a `SELECT` reads the row of an account
and an asset, an `INSERT` or `UPDATE` writes it.  `cellStmt` is that reading of the statements, on
a database seen as a map from cells to rows; `stmt_simulates` says that the database follows it as
long as row ids are not shared between cells.

Nothing orders the statements of two requests, so a balance read by one can be overwritten by the
other.  The requests are serialisable in the interleavings in which the conflicts on shared cells
(two statements of which one writes) all go one way: then the result is that of the two requests
run one after the other.
-/

namespace IntentX

open Lib

/-- The row of every cell. -/
def World.cells (w : World) : Uuid × Asset → Option Balance := fun k => w.balance k.1 k.2

/-! ## Statements on cells -/

/-- The cell a statement of the balance service reads or writes. -/
def Stmt.cell : Stmt → Option (Uuid × Asset)
  | .selectBalance a s => some (a, s)
  | .insertBalance b | .updateBalance b => some b.key
  | _ => none

/-- The statements that write no cell. -/
def Stmt.ReadsCell : Stmt → Prop
  | .insertBalance _ | .updateBalance _ => False
  | _ => True

/-- What the statements of the balance service do to the cells, given the accounts. -/
def cellStmt (accounts : List Account) :
    (o : Stmt) → (Uuid × Asset → Option Balance) →
      Except SqlError o.Reply × (Uuid × Asset → Option Balance)
  | .selectBalance a s, c => (.ok (c (a, s)), c)
  | .insertBalance b, c =>
    if accounts.any fun a => a.id == b.accountId then
      match c b.key with
      | none => (.ok (), Function.update c b.key (some b))
      | some _ => (.error .uniqueViolation, c)
    else (.error .foreignKeyViolation, c)
  | .updateBalance b, c =>
    (.ok (), Function.update c b.key ((c b.key).map fun r =>
      if r.id = b.id then
        { r with availableBalance := b.availableBalance, lockedBalance := b.lockedBalance,
                 updatedAt := b.updatedAt }
      else r))
  | .insertLedger _, c => (.ok (), c)
  | _, c => (.error .io, c)

theorem cellStmt_local (accounts : List Account) :
    Local (cellStmt accounts) Stmt.cell Stmt.ReadsCell where
  reply o c c' hc := by
    cases o with
    | selectBalance a s => exact congrArg Except.ok (hc (a, s) rfl)
    | insertBalance b =>
      simp only [cellStmt, hc b.key rfl]
      split
      · split <;> rfl
      · rfl
    | _ => rfl
  frame o c k hk := by
    cases o with
    | insertBalance b =>
      have hne : k ≠ b.key := fun he => hk (by rw [he]; rfl)
      simp only [cellStmt]
      split
      · split
        · exact Function.update_of_ne hne _ _
        · rfl
      · rfl
    | updateBalance b =>
      have hne : k ≠ b.key := fun he => hk (by rw [he]; rfl)
      exact Function.update_of_ne hne _ _
    | _ => rfl
  write o c c' k hk hc := by
    cases o with
    | insertBalance b =>
      cases hk
      simp only [cellStmt, ← hc]
      split
      · split
        · simp only [Function.update_self]
        · exact hc
      · exact hc
    | updateBalance b =>
      cases hk
      simp only [cellStmt, Function.update_self, hc]
    | selectBalance a s => exact hc
    | _ => cases hk
  read o c hr := by
    cases o with
    | insertBalance b => exact hr.elim
    | updateBalance b => exact hr.elim
    | _ => rfl

/-! ## The database follows the cells -/

section Owned

variable {ar : Arith} {own : Uuid → Option (Uuid × Asset)} {accounts : List Account} {w : World}

/-- Every row belongs to the cell that owns its id. -/
def RowsOwned (own : Uuid → Option (Uuid × Asset)) (accounts : List Account) (w : World) : Prop :=
  w.accounts = accounts ∧ ∀ r ∈ w.balances.rows, own r.id = some r.key

/-- The statements of the balance service, writing rows under ids of their own cell. -/
def Stmt.Owned (own : Uuid → Option (Uuid × Asset)) : Stmt → Prop
  | .selectBalance .. | .insertLedger _ => True
  | .insertBalance b | .updateBalance b => own b.id = some b.key
  | _ => False

/-- No row of another cell has an id that belongs to this one. -/
theorem id_ne_of_owned {b r : Balance} (hI : RowsOwned own accounts w)
    (hb : own b.id = some b.key) (hr : r ∈ w.balances.rows) (hk : r.key ≠ b.key) :
    r.id ≠ b.id := by
  intro hid
  have hown := hI.2 r hr
  rw [hid, hb] at hown
  exact hk (Option.some.inj hown).symm

/-- An id that belongs to the cell is free when the cell has no row. -/
theorem insert_of_owned {b : Balance} (hI : RowsOwned own accounts w) (hb : own b.id = some b.key) :
    (w.balances.insert b).isSome = true ↔ w.cells b.key = none := by
  rw [Table.insert_isSome_iff]
  unfold World.cells World.balance
  rw [Table.find_uk_none]
  constructor
  · exact fun h r hr => (h r hr).2
  · exact fun h r hr => ⟨id_ne_of_owned hI hb hr (h r hr), h r hr⟩

/-- An insertion is accepted just when the cell has no row. -/
theorem insert_owned_cases {b : Balance} (hI : RowsOwned own accounts w)
    (hb : own b.id = some b.key) :
    (∃ t, w.balances.insert b = some t ∧ w.cells b.key = none) ∨
      ∃ r, w.balances.insert b = none ∧ w.cells b.key = some r := by
  have hiff := insert_of_owned hI hb
  rcases hins : w.balances.insert b with _ | t
  · rw [hins] at hiff
    have hsome : w.cells b.key ≠ none := fun h => by cases hiff.2 h
    obtain ⟨r, hr⟩ := Option.ne_none_iff_exists'.1 hsome
    exact .inr ⟨r, rfl, hr⟩
  · rw [hins] at hiff
    exact .inl ⟨t, rfl, hiff.1 rfl⟩

/-- An insertion does to the cell of its row what it does to the table. -/
theorem insertBalance_simulates {b : Balance} (hI : RowsOwned own accounts w) (hb : own b.id = some b.key) :
    cellStmt accounts (.insertBalance b) w.cells =
      ((execStmt ar (.insertBalance b) w).1, (execStmt ar (.insertBalance b) w).2.cells) := by
  simp only [cellStmt, execStmt, ← hI.1]
  split
  · rcases insert_owned_cases hI hb with ⟨t, hins, hnone⟩ | ⟨r, hins, hsome⟩
    · simp only [hins, hnone, inserted]
      congr 1
      funext k
      rw [Function.update_apply]
      exact (Table.find_insert_uk hins k).symm
    · simp only [hins, hsome, inserted]
  · rfl

theorem stmt_simulates (ar : Arith) (own : Uuid → Option (Uuid × Asset)) (accounts : List Account) :
    Simulates (execStmt ar) (cellStmt accounts) World.cells (RowsOwned own accounts)
      (Stmt.Owned own) where
  inv o w hV hI := by
    cases o with
    | insertBalance b =>
      simp only [execStmt]
      split
      · rcases hins : w.balances.insert b with _ | t
        · exact hI
        · refine ⟨hI.1, fun r hr => ?_⟩
          rcases (Table.mem_insert hins).1 hr with hr | rfl
          · exact hI.2 r hr
          · exact hV
      · exact hI
    | updateBalance b =>
      refine ⟨hI.1, fun r hr => ?_⟩
      obtain ⟨r₀, hr₀, rfl⟩ := List.mem_map.1 hr
      split <;> exact hI.2 r₀ hr₀
    | selectBalance a s => exact hI
    | insertLedger e => exact hI
    | _ => exact hV.elim
  reply o w hV hI := by
    cases o with
    | insertBalance b => exact congrArg Prod.fst (insertBalance_simulates hI hV)
    | updateBalance b => rfl
    | selectBalance a s => rfl
    | insertLedger e => rfl
    | _ => exact hV.elim
  state o w hV hI := by
    cases o with
    | insertBalance b => exact congrArg Prod.snd (insertBalance_simulates hI hV)
    | updateBalance b =>
      funext k
      simp only [cellStmt, execStmt, Function.update_apply]
      unfold World.cells World.balance
      rw [Table.find_update_uk]
      split
      · next hk => simp only [hk, decide_eq_true_eq]
      · next hk =>
        rcases hr : w.balances.find (fun r => r.key = k) with _ | r
        · rfl
        · obtain ⟨hmem, hkey⟩ := Table.find_uk_iff.1 hr
          have hid : r.id ≠ b.id := id_ne_of_owned hI hV hmem (by rw [hkey]; exact hk)
          simp [hid]
    | selectBalance a s => rfl
    | insertLedger e => rfl
    | _ => exact hV.elim

end Owned

/-! ## The requests -/

section Requests

variable {ar : Arith} {own : Uuid → Option (Uuid × Asset)} {accounts : List Account} {env : Env}
  {a : Uuid} {s : Asset} {x : Int}

open Call in
/-- `find_or_create` answers a row under an id of its cell. -/
theorem findOrCreate_ensures (hown : own (env.uuid 0) = some (a, s)) :
    Ensures (execStmt ar) (RowsOwned own accounts) (Stmt.Owned own)
      (fun b => own b.id = some (a, s) ∧ b.key = (a, s)) (findOrCreate env a s) := by
  unfold findOrCreate
  have hsel : Ensures (execStmt ar) (RowsOwned own accounts) (Stmt.Owned own)
      (fun row : Option Balance => ∀ b, row = some b → own b.id = some (a, s) ∧ b.key = (a, s))
      (sql (.selectBalance a s)) := by
    refine ensures_op (o := Stmt.selectBalance a s) _ trivial fun w row hI hrow b hb => ?_
    cases hrow
    obtain ⟨hmem, hkey⟩ := Table.find_uk_iff.1 hb
    exact ⟨by rw [hI.2 b hmem, hkey], hkey⟩
  refine ensures_bind hsel fun row hrow => ?_
  cases row with
  | some b => exact ensures_pure (hrow b rfl)
  | none =>
    refine ensures_bind (Q := fun _ => True) ?_ fun _ _ => ensures_pure ⟨hown, rfl⟩
    exact ensures_op (o := Stmt.insertBalance _) _ hown fun _ _ _ _ => trivial

open Call in
/-- The row that `find_or_create` answered may be written. -/
theorem updateRow_ensures {b : Balance} (hb : own b.id = some (a, s) ∧ b.key = (a, s)) :
    Ensures (execStmt ar) (RowsOwned own accounts) (Stmt.Owned own) (fun _ => True) (updateRow b) :=
  have hown : own b.id = some b.key := hb.1.trans (congrArg some hb.2.symm)
  ensures_op (o := Stmt.updateBalance b) _ hown fun _ _ _ _ => trivial

open Call in
theorem createEntry_ensures {t : EntryType} {r : ReferenceType} {ref : Uuid} :
    Ensures (execStmt ar) (RowsOwned own accounts) (Stmt.Owned own) (fun _ => True)
      (createEntry env a s x t r ref) :=
  ensures_bind (Q := fun _ => True)
    (ensures_op (o := Stmt.insertLedger _) _ trivial fun _ _ _ _ => trivial) fun _ _ =>
      ensures_pure trivial

/-- The cell for which a request would create a row with its `i`-th new id. -/
def BalanceReq.newCell : BalanceReq → Nat → Uuid × Asset
  | .deposit a s _, _ | .withdraw a s _, _ | .lockBalance a s _, _ | .unlockBalance a s _, _ => (a, s)
  | .transfer a _ s _, 0 => (a, s)
  | .transfer _ b s _, _ => (b, s)

open Call in
/-- A request whose new ids belong to its cells writes rows under ids of their own cells. -/
theorem BalanceReq.ensures (ar : Arith) (accounts : List Account) {req : BalanceReq}
    (hown : ∀ i < 2, own (env.uuid i) = some (req.newCell i)) :
    Ensures (execStmt ar) (RowsOwned own accounts) (Stmt.Owned own) (fun _ => True)
      (req.call ar env) := by
  have h0 := hown 0 (by decide)
  cases req with
  | deposit a s x =>
    refine ensures_bind (Q := fun _ => True) (ensures_failIf _ _ ?_) fun _ _ => ensures_pure trivial
    refine ensures_bind (ensures_mapErr (findOrCreate_ensures h0)) fun b hb => ?_
    refine ensures_bind (ensures_mapErr (updateRow_ensures hb)) fun _ _ => ?_
    exact ensures_bind (ensures_mapErr createEntry_ensures) fun _ _ => ensures_pure trivial
  | withdraw a s x =>
    refine ensures_bind (Q := fun _ => True) (ensures_failIf _ _ ?_) fun _ _ => ensures_pure trivial
    refine ensures_bind (ensures_mapErr (findOrCreate_ensures h0)) fun b hb => ensures_failIf _ _ ?_
    refine ensures_bind (ensures_mapErr (updateRow_ensures hb)) fun _ _ => ?_
    exact ensures_bind (ensures_mapErr createEntry_ensures) fun _ _ => ensures_pure trivial
  | lockBalance a s x =>
    refine ensures_bind (Q := fun _ => True) (ensures_failIf _ _ ?_) fun _ _ => ensures_pure trivial
    refine ensures_bind (ensures_mapErr (findOrCreate_ensures h0)) fun b hb => ensures_failIf _ _ ?_
    exact ensures_bind (ensures_mapErr (updateRow_ensures hb)) fun _ _ =>
      ensures_pure trivial
  | unlockBalance a s x =>
    refine ensures_bind (Q := fun _ => True) (ensures_failIf _ _ ?_) fun _ _ => ensures_pure trivial
    refine ensures_bind (ensures_mapErr (findOrCreate_ensures h0)) fun b hb => ensures_failIf _ _ ?_
    exact ensures_bind (ensures_mapErr (updateRow_ensures hb)) fun _ _ =>
      ensures_pure trivial
  | transfer a dst s x =>
    have h1 := hown 1 (by decide)
    refine ensures_bind (Q := fun _ => True) (ensures_failIf _ _ ?_) fun _ _ => ensures_pure trivial
    refine ensures_bind (ensures_mapErr (findOrCreate_ensures h0)) fun b hb => ensures_failIf _ _ ?_
    refine ensures_bind (ensures_mapErr (findOrCreate_ensures
      (show own ((env.drop 1).uuid 0) = some (dst, s) from h1))) fun b' hb' => ?_
    refine ensures_bind (ensures_mapErr (updateRow_ensures hb)) fun _ _ => ?_
    refine ensures_bind (ensures_mapErr (updateRow_ensures hb')) fun _ _ => ?_
    refine ensures_bind (Q := fun _ => True) (ensures_mapErr ?_) fun _ _ => ensures_pure trivial
    exact ensures_bind createEntry_ensures fun _ _ =>
      ensures_bind createEntry_ensures fun _ _ => ensures_pure trivial

end Requests

/-! ## Serialisability -/

/-- New ids are new: `Uuid::new_v4()` repeats none and hits none of the table. -/
structure FreshIds (env env' : Env) (w : World) : Prop where
  unused : ∀ i < 2, ∀ b ∈ w.balances.rows, b.id ≠ env.uuid i ∧ b.id ≠ env'.uuid i
  distinct : env.uuid 0 ≠ env.uuid 1 ∧ env'.uuid 0 ≠ env'.uuid 1
  apart : ∀ i < 2, ∀ j < 2, env.uuid i ≠ env'.uuid j

/-- The cell an id belongs to: that of its row, or the one a request would create a row for. -/
def ownerOf (env env' : Env) (req req' : BalanceReq) (w : World) (id : Uuid) : Option (Uuid × Asset) :=
  if id = env.uuid 0 then some (req.newCell 0)
  else if id = env.uuid 1 then some (req.newCell 1)
  else if id = env'.uuid 0 then some (req'.newCell 0)
  else if id = env'.uuid 1 then some (req'.newCell 1)
  else (w.balances.find fun b => b.id = id).map Balance.key

section Serial

variable {env env' : Env} {req req' : BalanceReq} {w : World}

theorem ownerOf_left (req req' : BalanceReq) (h : FreshIds env env' w) :
    ∀ i < 2, ownerOf env env' req req' w (env.uuid i) = some (req.newCell i) := by
  intro i hi
  obtain rfl | rfl : i = 0 ∨ i = 1 := by omega
  · exact if_pos rfl
  · unfold ownerOf
    rw [if_neg h.distinct.1.symm, if_pos rfl]

theorem ownerOf_right (req req' : BalanceReq) (h : FreshIds env env' w) :
    ∀ i < 2, ownerOf env env' req req' w (env'.uuid i) = some (req'.newCell i) := by
  intro i hi
  have h0 := (h.apart 0 (by decide) i hi).symm
  have h1 := (h.apart 1 (by decide) i hi).symm
  unfold ownerOf
  rw [if_neg h0, if_neg h1]
  obtain rfl | rfl : i = 0 ∨ i = 1 := by omega
  · exact if_pos rfl
  · rw [if_neg h.distinct.2.symm, if_pos rfl]

theorem ownerOf_rows (req req' : BalanceReq) (h : FreshIds env env' w) :
    RowsOwned (ownerOf env env' req req' w) w.accounts w := by
  refine ⟨rfl, fun b hb => ?_⟩
  have h0 := h.unused 0 (by decide) b hb
  have h1 := h.unused 1 (by decide) b hb
  unfold ownerOf
  rw [if_neg h0.1, if_neg h1.1, if_neg h0.2, if_neg h1.2,
    show (w.balances.find fun r => r.id = b.id) = some b from Table.find_pk_iff.2 ⟨hb, rfl⟩]
  rfl

/-- The conflicts between the two requests all go from the first to the second, or all from the
second to the first. -/
def ConflictsOneWay (l : List (Bool × Stmt)) : Prop :=
  LeftFirst Stmt.cell Stmt.ReadsCell l ∨
    LeftFirst Stmt.cell Stmt.ReadsCell (l.map fun x => (!x.1, x.2))

/-- `w'` has the balances of the two requests run alone, `req` first. -/
def SerialEnd (env env' : Env) (req req' : BalanceReq) (w w' : World)
    (r r' : Except BalanceError (List Balance)) : Prop :=
  ∃ w₁ w₂, Call.exec (execStmt .release) (req.call .release env) w = (r, w₁) ∧
    Call.exec (execStmt .release) (req'.call .release env') w₁ = (r', w₂) ∧
    ∀ a s, w'.balance a s = w₂.balance a s

theorem FreshIds.symm (h : FreshIds env env' w) : FreshIds env' env w where
  unused i hi b hb := (h.unused i hi b hb).symm
  distinct := h.distinct.symm
  apart i hi j hj := (h.apart j hj i hi).symm

/-- An interleaving in which the conflicts go from `req` to `req'` does what `req` and then `req'`
do alone. -/
theorem serialEnd_of_leftFirst {w' : World} {l : List (Bool × Stmt)}
    {r r' : Except BalanceError (List Balance)} (hids : FreshIds env env' w)
    (hi : Interleaves (execStmt .release) (req.call .release env).run
      (req'.call .release env').run w l r r' w')
    (hl : LeftFirst Stmt.cell Stmt.ReadsCell l) : SerialEnd env env' req req' w w' r r' := by
  have hS := stmt_simulates .release (ownerOf env env' req req' w) w.accounts
  have hp := BalanceReq.ensures .release w.accounts (ownerOf_left req req' hids)
  have hq := BalanceReq.ensures .release w.accounts (ownerOf_right req req' hids)
  have hw := ownerOf_rows req req' hids
  obtain ⟨-, hres, hfin⟩ := (hi.simulate hS hp hq hw).serial (cellStmt_local _) hl
  -- carry the two runs alone back from the cells to the database
  obtain ⟨hrun, hw₁⟩ := hS.run hp hw
  rw [hrun] at hres hfin
  obtain ⟨hrun', -⟩ := hS.run hq hw₁
  rw [hrun'] at hfin
  obtain ⟨hr', hcells⟩ := Prod.mk.inj hfin
  refine ⟨_, _, Prod.ext hres rfl, Prod.ext hr' rfl, fun a s => ?_⟩
  exact (congrFun hcells (a, s)).symm

/-- **When two balance requests are serialisable.**  In every interleaving of their statements in
which the conflicts on shared cells go one way, the balances and the answers are those of the two
requests run one after the other. -/
theorem balance_requests_serialisable (env env' : Env) (req req' : BalanceReq) (w w' : World)
    (l : List (Bool × Stmt)) (r r' : Except BalanceError (List Balance))
    (hids : FreshIds env env' w)
    (hi : Interleaves (execStmt .release) (req.call .release env).run
      (req'.call .release env').run w l r r' w')
    (hl : ConflictsOneWay l) :
    SerialEnd env env' req req' w w' r r' ∨ SerialEnd env' env req' req w w' r' r := by
  rcases hl with hl | hl
  · exact .inl (serialEnd_of_leftFirst hids hi hl)
  · exact .inr (serialEnd_of_leftFirst hids.symm hi.swap hl)

end Serial

/-- One account with 100 USDC. -/
def oneRow : World :=
  { World.empty with
    accounts := [⟨2, 10⟩]
    balances := ⟨[⟨100, 2, .USDC, 100, 0, 0⟩], by decide, by decide⟩ }

def envA : Env := ⟨fun i => 1000 + i, fun _ => 1⟩

def envB : Env := ⟨fun i => 2000 + i, fun _ => 2⟩

theorem oneRow_freshIds : FreshIds envA envB oneRow where
  unused i hi b hb := by
    rw [List.mem_singleton.1 hb]
    show (100 : Nat) ≠ 1000 + i ∧ (100 : Nat) ≠ 2000 + i
    omega
  distinct := by decide
  apart i hi j hj := by
    show (1000 + i : Nat) ≠ 2000 + j
    omega

/-- Two deposits to the one row, 50 and 30, in the order of a schedule. -/
def twoDeposits (is : List Bool) :=
  weave (execStmt .release) is ((BalanceReq.deposit 2 .USDC 50).call .release envA).run
    ((BalanceReq.deposit 2 .USDC 30).call .release envB).run oneRow

/-- The second deposit reads after the first has written, and before it has booked. -/
theorem twoDeposits_serialisable :
    ∃ l r r' w', twoDeposits [true, true, false, true, false, false] = some (l, r, r', w') ∧
      (SerialEnd envA envB (.deposit 2 .USDC 50) (.deposit 2 .USDC 30) oneRow w' r r' ∨
        SerialEnd envB envA (.deposit 2 .USDC 30) (.deposit 2 .USDC 50) oneRow w' r' r) := by
  have hlog : (twoDeposits [true, true, false, true, false, false]).map Prod.fst =
      some [(true, .selectBalance 2 .USDC), (true, .updateBalance ⟨100, 2, .USDC, 150, 0, 1⟩),
        (false, .selectBalance 2 .USDC),
        (true, .insertLedger ⟨1002, 2, .USDC, 50, .DEBIT, .DEPOSIT, 1001, 1⟩),
        (false, .updateBalance ⟨100, 2, .USDC, 180, 0, 2⟩),
        (false, .insertLedger ⟨2002, 2, .USDC, 30, .DEBIT, .DEPOSIT, 2001, 2⟩)] := rfl
  obtain ⟨⟨l, r, r', w'⟩, hw, hl⟩ := Option.map_eq_some_iff.1 hlog
  refine ⟨l, r, r', w', hw, ?_⟩
  refine balance_requests_serialisable envA envB _ _ oneRow w' l r r' oneRow_freshIds
    (.of_weave hw) (.inl ?_)
  rw [show l = _ from hl]
  simp [LeftFirst, Conflict, Stmt.cell]

/-- Both deposits read 100 before either writes; the one that writes last is all that is left. -/
theorem twoDeposits_lost_update :
    ¬ ∀ (env env' : Env) (req req' : BalanceReq) (w w' : World) (l : List (Bool × Stmt))
        (r r' : Except BalanceError (List Balance)), FreshIds env env' w →
      Interleaves (execStmt .release) (req.call .release env).run
        (req'.call .release env').run w l r r' w' →
      SerialEnd env env' req req' w w' r r' ∨ SerialEnd env' env req' req w w' r' r := by
  intro h
  have hrow : (twoDeposits [true, false, true, false, true, false]).map
      (fun x => x.2.2.2.balance 2 .USDC) = some (some ⟨100, 2, .USDC, 130, 0, 2⟩) := rfl
  obtain ⟨⟨l, r, r', w'⟩, hw, hb⟩ := Option.map_eq_some_iff.1 hrow
  have hb' : w'.balance 2 .USDC = some ⟨100, 2, .USDC, 130, 0, 2⟩ := hb
  rcases h envA envB (.deposit 2 .USDC 50) (.deposit 2 .USDC 30) oneRow w' l r r' oneRow_freshIds
    (.of_weave hw) with ⟨w₁, w₂, hA, hB, hend⟩ | ⟨w₁, w₂, hB, hA, hend⟩
  · obtain rfl := congrArg Prod.snd hA
    obtain rfl := congrArg Prod.snd hB
    have hrow := (hb'.symm.trans (hend 2 .USDC))
    revert hrow
    decide
  · obtain rfl := congrArg Prod.snd hB
    obtain rfl := congrArg Prod.snd hA
    have hrow := (hb'.symm.trans (hend 2 .USDC))
    revert hrow
    decide

end IntentX
