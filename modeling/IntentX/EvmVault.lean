import Mathlib.Tactic.Ring
import IntentX.Lib.Ledger
import IntentX.Lib.Guard

/-!
# The settlement vault on an EVM chain

`contracts/src/IntentXSettlement.sol`: users deposit ERC-20 tokens, the authority settles trades
between the recorded balances, users withdraw.  A call either runs to its end or reverts, and then
it has done nothing.  `uint256` arithmetic is checked, so an operation that does not fit reverts.

A token is a ledger outside the contract.  It moves exactly what it is asked to move or reverts; why
it reverts (no allowance, a block list, no such contract) is its own business.  The contract never
calls itself and grants no allowance, so nobody else takes tokens out of its account.

Along every run the recorded balances of a token are together what was deposited minus what was
withdrawn, and the contract holds at least that (`run_solvent`).
-/

namespace IntentX.Evm

open Lib

structure Address where
  val : Fin (2 ^ 160)
  deriving DecidableEq

namespace Address

def ofNat (n : Nat) : Address := ⟨Fin.ofNat _ n⟩

instance : Zero Address := ⟨ofNat 0⟩

instance : Fintype Address := Fintype.ofEquiv (Fin (2 ^ 160)) ⟨mk, val, fun _ => rfl, fun _ => rfl⟩

end Address

/-! ## State -/

def maxFeeBps : Nat := 5000

/-- The storage of the contract, with that of `Pausable`. -/
structure Vault where
  authority : Address
  feeBps : Nat
  feeRecipient : Address
  totalSettlements : Nat
  totalVolume : Nat
  /-- user => token => amount -/
  balances : Address → Address → Nat
  paused : Bool

inductive Event where
  | deposit (user token : Address) (amount newBalance : Nat)
  | withdraw (user token : Address) (amount remaining : Nat)
  | settlement (fillId : BitVec 128) (buyer seller token : Address)
      (amount fee sellerReceives : Nat)
  | authorityUpdated (oldAuthority newAuthority : Address)
  | feeUpdated (oldFee newFee : Nat)
  | feeRecipientUpdated (oldRecipient newRecipient : Address)
  | paused (account : Address)
  | unpaused (account : Address)

inductive VaultError where
  | unauthorized
  | zeroAmount
  | zeroAddress
  | insufficientBalance (available required : Nat)
  | feeTooHigh (requested max : Nat)
  | enforcedPause
  | expectedPause
  /-- `Panic(0x11)` of a checked operation. -/
  | arithmetic
  /-- The token reverted, or returned false. -/
  | token
  deriving DecidableEq

/-- The vault, the ledgers of all tokens and the log. -/
structure Chain where
  vault : Vault
  tokens : Address → Ledger Address
  events : List Event

/-! ## Checked arithmetic and tokens -/

def checked (n : Nat) : Except VaultError Nat := within (2 ^ 256) n .arithmetic

def checkedSub (a b : Nat) : Except VaultError Nat := minus a b .arithmetic

/-- `safeTransferFrom` and `safeTransfer`: `willing` is false when the token reverts for reasons of
its own. -/
def safeTransfer (willing : Bool) (token src dst : Address) (amount : Nat) (c : Chain) :
    Except VaultError Chain :=
  if willing = true ∧ amount ≤ (c.tokens token).get src then
    .ok { c with tokens := Function.update c.tokens token ((c.tokens token).move src dst amount) }
  else .error .token

/-! ## The contract -/

def Vault.setBalance (v : Vault) (user token : Address) (n : Nat) : Vault :=
  { v with balances := Function.update v.balances user (Function.update (v.balances user) token n) }

def Chain.emit (c : Chain) (e : Event) : Chain := { c with events := c.events ++ [e] }

def constructVault (authority feeRecipient : Address) (feeBps : Nat) : Except VaultError Vault := do
  require (authority ≠ 0) .zeroAddress
  require (feeRecipient ≠ 0) .zeroAddress
  require (feeBps ≤ maxFeeBps) (.feeTooHigh feeBps maxFeeBps)
  return { authority, feeRecipient, feeBps, totalSettlements := 0, totalVolume := 0,
           balances := fun _ _ => 0, paused := false }

def deposit (here sender : Address) (willing : Bool) (token : Address) (amount : Nat) (c : Chain) :
    Except VaultError Chain := do
  require (¬ c.vault.paused) .enforcedPause
  require (amount ≠ 0) .zeroAmount
  require (token ≠ 0) .zeroAddress
  let c ← safeTransfer willing token sender here amount c
  let bal ← checked (c.vault.balances sender token + amount)
  let c := { c with vault := c.vault.setBalance sender token bal }
  return c.emit (.deposit sender token amount (c.vault.balances sender token))

def withdraw (here sender : Address) (willing : Bool) (token : Address) (amount : Nat) (c : Chain) :
    Except VaultError Chain := do
  require (¬ c.vault.paused) .enforcedPause
  require (amount ≠ 0) .zeroAmount
  let bal := c.vault.balances sender token
  require (¬ bal < amount) (.insufficientBalance bal amount)
  let left ← checkedSub bal amount
  let c := { c with vault := c.vault.setBalance sender token left }
  let c ← safeTransfer willing token here sender amount c
  return c.emit (.withdraw sender token amount (c.vault.balances sender token))

/-- `if (fee > 0)`: credit the fee recipient. -/
def creditFee (token : Address) (fee : Nat) (v : Vault) : Except VaultError Vault :=
  if 0 < fee then do
    let bal ← checked (v.balances v.feeRecipient token + fee)
    return v.setBalance v.feeRecipient token bal
  else .ok v

/-- The part of `settle` after the modifiers, on the storage alone: the new storage, the fee and what
the seller receives. -/
def settleBalances (buyer seller token : Address) (amount : Nat) (v : Vault) :
    Except VaultError (Vault × Nat × Nat) := do
  require (amount ≠ 0) .zeroAmount
  let product ← checked (amount * v.feeBps)
  let fee := product / 10000
  let sellerReceives ← checkedSub amount fee
  -- debit buyer
  let buyerBal := v.balances buyer token
  require (¬ buyerBal < amount) (.insufficientBalance buyerBal amount)
  let debited ← checkedSub buyerBal amount
  let v := v.setBalance buyer token debited
  -- credit seller
  let credited ← checked (v.balances seller token + sellerReceives)
  let v := v.setBalance seller token credited
  let v ← creditFee token fee v
  -- update stats
  let settlements ← checked (v.totalSettlements + 1)
  let volume ← checked (v.totalVolume + amount)
  return ({ v with totalSettlements := settlements, totalVolume := volume }, fee, sellerReceives)

def settle (sender buyer seller token : Address) (amount : Nat) (fillId : BitVec 128) (c : Chain) :
    Except VaultError Chain := do
  require (sender = c.vault.authority) .unauthorized
  require (¬ c.vault.paused) .enforcedPause
  let (v, fee, sellerReceives) ← settleBalances buyer seller token amount c.vault
  return { c with vault := v }.emit
    (.settlement fillId buyer seller token amount fee sellerReceives)

def updateAuthority (sender newAuthority : Address) (c : Chain) : Except VaultError Chain := do
  require (sender = c.vault.authority) .unauthorized
  require (newAuthority ≠ 0) .zeroAddress
  return { c.emit (.authorityUpdated c.vault.authority newAuthority) with
    vault := { c.vault with authority := newAuthority } }

def updateFee (sender : Address) (newFeeBps : Nat) (c : Chain) : Except VaultError Chain := do
  require (sender = c.vault.authority) .unauthorized
  require (newFeeBps ≤ maxFeeBps) (.feeTooHigh newFeeBps maxFeeBps)
  return { c.emit (.feeUpdated c.vault.feeBps newFeeBps) with
    vault := { c.vault with feeBps := newFeeBps } }

def updateFeeRecipient (sender newRecipient : Address) (c : Chain) : Except VaultError Chain := do
  require (sender = c.vault.authority) .unauthorized
  require (newRecipient ≠ 0) .zeroAddress
  return { c.emit (.feeRecipientUpdated c.vault.feeRecipient newRecipient) with
    vault := { c.vault with feeRecipient := newRecipient } }

def pause (sender : Address) (c : Chain) : Except VaultError Chain := do
  require (sender = c.vault.authority) .unauthorized
  require (¬ c.vault.paused) .enforcedPause
  return { c with vault := { c.vault with paused := true } }.emit (.paused sender)

def unpause (sender : Address) (c : Chain) : Except VaultError Chain := do
  require (sender = c.vault.authority) .unauthorized
  require (c.vault.paused = true) .expectedPause
  return { c with vault := { c.vault with paused := false } }.emit (.unpaused sender)

/-! ## Runs -/

/-- What a transaction may ask for.  `elsewhere` is anything that happens to a token without the
vault taking part. -/
inductive Call where
  | deposit (willing : Bool) (token : Address) (amount : Nat)
  | withdraw (willing : Bool) (token : Address) (amount : Nat)
  | settle (buyer seller token : Address) (amount : Nat) (fillId : BitVec 128)
  | updateAuthority (newAuthority : Address)
  | updateFee (newFeeBps : Nat)
  | updateFeeRecipient (newRecipient : Address)
  | pause
  | unpause
  | elsewhere (token : Address) (holdings : Ledger Address)

/-- A call and who makes it: any account but the contract at `here`, which makes no call to itself. -/
structure Tx (here : Address) where
  sender : Address
  notHere : sender ≠ here
  call : Call

def Tx.exec {here : Address} (tx : Tx here) (c : Chain) : Except VaultError Chain :=
  match tx.call with
  | .deposit willing token amount => deposit here tx.sender willing token amount c
  | .withdraw willing token amount => withdraw here tx.sender willing token amount c
  | .settle buyer seller token amount fillId => settle tx.sender buyer seller token amount fillId c
  | .updateAuthority a => updateAuthority tx.sender a c
  | .updateFee f => updateFee tx.sender f c
  | .updateFeeRecipient a => updateFeeRecipient tx.sender a c
  | .pause => pause tx.sender c
  | .unpause => unpause tx.sender c
  | .elsewhere token holdings => do
    require ((c.tokens token).get here ≤ holdings.get here) .token
    return { c with tokens := Function.update c.tokens token holdings }

/-- The chain after the transactions; one that reverts leaves it as it was. -/
def run {here : Address} : List (Tx here) → Chain → Chain
  | [], c => c
  | tx :: txs, c =>
    match tx.exec c with
    | .ok c' => run txs c'
    | .error _ => run txs c

/-! ## Solvency -/

/-- What the users have in a token, by the vault's own records. -/
def Vault.ledger (v : Vault) (token : Address) : Ledger Address := fun user => v.balances user token

def Event.deposited (token : Address) : Event → Nat
  | .deposit _ t amount _ => if t = token then amount else 0
  | _ => 0

def Event.withdrawn (token : Address) : Event → Nat
  | .withdraw _ t amount _ => if t = token then amount else 0
  | _ => 0

def Chain.deposited (c : Chain) (token : Address) : Nat := (c.events.map (·.deposited token)).sum

def Chain.withdrawn (c : Chain) (token : Address) : Nat := (c.events.map (·.withdrawn token)).sum

/-- Every token is covered, the records are what came in minus what went out, and the fee is
capped. -/
structure Solvent (here : Address) (c : Chain) : Prop where
  covered : ∀ t, (c.vault.ledger t).total ≤ (c.tokens t).get here
  recorded : ∀ t, (c.vault.ledger t).total + c.withdrawn t = c.deposited t
  capped : c.vault.feeBps ≤ maxFeeBps

section Steps

variable {here sender buyer seller token t : Address} {willing : Bool} {amount n : Nat}
  {fillId : BitVec 128} {v v' : Vault} {c c' : Chain}

theorem balances_setBalance_self (v : Vault) (user token : Address) (n : Nat) :
    (v.setBalance user token n).balances user token = n := by
  simp [Vault.setBalance]

theorem balances_setBalance_ne {u user : Address} (h : u ≠ user) (v : Vault) (token : Address) (n : Nat) :
    (v.setBalance user token n).balances u token = v.balances u token := by
  simp [Vault.setBalance, h]

theorem ledger_setBalance_self (v : Vault) (user token : Address) (n : Nat) :
    (v.setBalance user token n).ledger token = (v.ledger token).set user n := by
  funext u
  unfold Vault.ledger Vault.setBalance Ledger.set
  by_cases h : u = user
  · subst h; simp
  · simp [h]

theorem ledger_setBalance_ne (v : Vault) (user : Address) (n : Nat) (h : t ≠ token) :
    (v.setBalance user token n).ledger t = v.ledger t := by
  funext u
  unfold Vault.ledger Vault.setBalance
  by_cases hu : u = user
  · subst hu; simp [h]
  · simp [hu]

/-- Writing one balance moves the sum by the difference. -/
theorem total_setBalance (v : Vault) (user token : Address) (n : Nat) :
    ((v.setBalance user token n).ledger token).total + v.balances user token =
      (v.ledger token).total + n := by
  rw [ledger_setBalance_self]
  exact (v.ledger token).total_set

/-- What a call does to the sums: `ins` comes in, `outs` goes out, of each token. -/
structure Moves (here : Address) (c c' : Chain) (ins outs : Address → Nat) : Prop where
  total : ∀ t, (c'.vault.ledger t).total + outs t = (c.vault.ledger t).total + ins t
  held : ∀ t, (c.tokens t).get here + ins t ≤ (c'.tokens t).get here + outs t
  deposited : ∀ t, c'.deposited t = c.deposited t + ins t
  withdrawn : ∀ t, c'.withdrawn t = c.withdrawn t + outs t
  capped : c.vault.feeBps ≤ maxFeeBps → c'.vault.feeBps ≤ maxFeeBps

theorem Moves.solvent {ins outs : Address → Nat} (h : Moves here c c' ins outs)
    (hs : Solvent here c) : Solvent here c' where
  covered t := by
    have := h.total t; have := h.held t; have := hs.covered t
    omega
  recorded t := by
    have := h.total t; have := h.deposited t; have := h.withdrawn t; have := hs.recorded t
    omega
  capped := h.capped hs.capped

/-- `n` of one token, nothing of the others. -/
def only (token : Address) (n : Nat) (t : Address) : Nat := if token = t then n else 0

theorem total_add (v : Vault) (user token : Address) (n : Nat) (t : Address) :
    ((v.setBalance user token (v.balances user token + n)).ledger t).total =
      (v.ledger t).total + only token n t := by
  unfold only
  split
  · next he =>
    subst he
    have := total_setBalance v user token (v.balances user token + n)
    omega
  · next hne => rw [ledger_setBalance_ne _ _ _ (Ne.symm hne), Nat.add_zero]

theorem total_sub (user token : Address) (h : n ≤ v.balances user token) (t : Address) :
    ((v.setBalance user token (v.balances user token - n)).ledger t).total + only token n t =
      (v.ledger t).total := by
  unfold only
  split
  · next he =>
    subst he
    have := total_setBalance v user token (v.balances user token - n)
    omega
  · next hne => rw [ledger_setBalance_ne _ _ _ (Ne.symm hne), Nat.add_zero]

theorem held_in (tokens : Address → Ledger Address) (token : Address) (n : Nat) (t : Address)
    (hne : sender ≠ here) :
    (Function.update tokens token ((tokens token).move sender here n) t).get here =
      (tokens t).get here + only token n t := by
  unfold only
  split
  · next he =>
    subst he
    rw [Function.update_self, Ledger.get_move_to _ (Ne.symm hne)]
  · next h => rw [Function.update_of_ne (Ne.symm h), Nat.add_zero]

theorem held_out {tokens : Address → Ledger Address} (t : Address) (hne : sender ≠ here)
    (h : n ≤ (tokens token).get here) :
    (Function.update tokens token ((tokens token).move here sender n) t).get here + only token n t =
      (tokens t).get here := by
  unfold only
  split
  · next he =>
    subst he
    rw [Function.update_self, Ledger.get_move_from _ (Ne.symm hne), Nat.sub_add_cancel h]
  · next h => rw [Function.update_of_ne (Ne.symm h), Nat.add_zero]

theorem deposited_of_events (e : Event) (h : c'.events = c.events ++ [e]) (t : Address) :
    c'.deposited t = c.deposited t + e.deposited t := by
  simp [Chain.deposited, h]

theorem withdrawn_of_events (e : Event) (h : c'.events = c.events ++ [e]) (t : Address) :
    c'.withdrawn t = c.withdrawn t + e.withdrawn t := by
  simp [Chain.withdrawn, h]

theorem safeTransfer_ok {src dst : Address} (h : safeTransfer willing token src dst amount c = .ok c') :
    amount ≤ (c.tokens token).get src ∧ c' = { c with
      tokens := Function.update c.tokens token ((c.tokens token).move src dst amount) } := by
  unfold safeTransfer at h
  split at h
  · next hok => cases h; exact ⟨hok.2, rfl⟩
  · cases h

theorem deposit_moves (hne : sender ≠ here)
    (h : deposit here sender willing token amount c = .ok c') :
    Moves here c c' (only token amount) fun _ => 0 := by
  unfold deposit at h
  simp only [Guard.require_bind] at h
  obtain ⟨-, -, -, h⟩ := h
  obtain ⟨c₁, htr, h⟩ := Guard.bind_ok.1 h
  obtain ⟨-, rfl⟩ := safeTransfer_ok htr
  obtain ⟨-, h⟩ := Guard.within_bind.1 h
  obtain rfl := Guard.pure_ok.1 h
  refine ⟨fun t => ?_, fun t => ?_, fun t => ?_, fun t => ?_, id⟩
  · rw [Nat.add_zero]
    exact total_add c.vault sender token amount t
  · exact (held_in c.tokens token amount t hne).ge
  · exact deposited_of_events (.deposit sender token amount _) rfl t
  · exact withdrawn_of_events (.deposit sender token amount _) rfl t

theorem withdraw_moves (hne : sender ≠ here)
    (h : withdraw here sender willing token amount c = .ok c') :
    Moves here c c' (fun _ => 0) (only token amount) := by
  unfold withdraw at h
  simp only [Guard.require_bind] at h
  obtain ⟨-, -, -, h⟩ := h
  obtain ⟨hle, h⟩ := Guard.minus_bind.1 h
  obtain ⟨c₁, htr, h⟩ := Guard.bind_ok.1 h
  obtain ⟨hheld, rfl⟩ := safeTransfer_ok htr
  obtain rfl := Guard.pure_ok.1 h
  refine ⟨fun t => ?_, fun t => ?_, fun t => ?_, fun t => ?_, id⟩
  · rw [Nat.add_zero]
    exact total_sub sender token hle t
  · rw [Nat.add_zero]
    exact (held_out t hne hheld).ge
  · exact deposited_of_events (.withdraw sender token amount _) rfl t
  · exact withdrawn_of_events (.withdraw sender token amount _) rfl t

/-- A settlement that goes through, whichever of the three accounts are the same: one debit and one
or two credits, which add up. -/
theorem settleBalances_ok {r : Vault × Nat × Nat}
    (h : settleBalances buyer seller token amount v = .ok r) :
    (∀ t, (r.1.ledger t).total = (v.ledger t).total) ∧ r.1.feeBps = v.feeBps := by
  unfold settleBalances at h
  rw [Guard.require_bind] at h
  obtain ⟨-, h⟩ := h
  obtain ⟨-, h⟩ := Guard.within_bind.1 h
  obtain ⟨hfee, h⟩ := Guard.minus_bind.1 h
  rw [Guard.require_bind] at h
  obtain ⟨-, h⟩ := h
  obtain ⟨hbal, h⟩ := Guard.minus_bind.1 h
  obtain ⟨-, h⟩ := Guard.within_bind.1 h
  obtain ⟨v₃, hv₃, h⟩ := Guard.bind_ok.1 h
  obtain ⟨-, h⟩ := Guard.within_bind.1 h
  obtain ⟨-, h⟩ := Guard.within_bind.1 h
  obtain rfl := Guard.pure_ok.1 h
  generalize hf : amount * v.feeBps / 10000 = fee at hfee hv₃
  generalize hv₁ : v.setBalance buyer token (v.balances buyer token - amount) = v₁ at hv₃
  generalize hv₂ : v₁.setBalance seller token (v₁.balances seller token + (amount - fee)) = v₂ at hv₃
  have h₁ : ∀ t, (v₁.ledger t).total + only token amount t = (v.ledger t).total := by
    rw [← hv₁]; exact total_sub buyer token hbal
  have h₂ : ∀ t, (v₂.ledger t).total = (v₁.ledger t).total + only token (amount - fee) t := by
    rw [← hv₂]; exact total_add v₁ seller token _
  have h₃ : (∀ t, (v₃.ledger t).total = (v₂.ledger t).total + only token fee t) ∧
      v₃.feeBps = v₂.feeBps := by
    unfold creditFee at hv₃
    split at hv₃
    · obtain ⟨-, hv₃⟩ := Guard.within_bind.1 hv₃
      obtain rfl := Guard.pure_ok.1 hv₃
      exact ⟨total_add v₂ _ token fee, rfl⟩
    · next hz =>
      cases hv₃
      obtain rfl : fee = 0 := by omega
      exact ⟨fun t => by simp [only], rfl⟩
  refine ⟨fun t => ?_, ?_⟩
  · show (v₃.ledger t).total = _
    have := h₁ t; have := h₂ t; have := h₃.1 t
    have hsum : only token (amount - fee) t + only token fee t = only token amount t := by
      unfold only
      split <;> omega
    omega
  · show v₃.feeBps = _
    rw [h₃.2, ← hv₂, ← hv₁]
    rfl

theorem settle_ok (h : settle sender buyer seller token amount fillId c = .ok c') :
    ∃ v fee receives, settleBalances buyer seller token amount c.vault = .ok (v, fee, receives) ∧
      c' = { c with vault := v }.emit (.settlement fillId buyer seller token amount fee receives) := by
  unfold settle at h
  simp only [Guard.require_bind] at h
  obtain ⟨-, -, h⟩ := h
  obtain ⟨⟨v, fee, receives⟩, hv, h⟩ := Guard.bind_ok.1 h
  obtain rfl := Guard.pure_ok.1 h
  exact ⟨v, fee, receives, hv, rfl⟩

theorem settle_total (h : settle sender buyer seller token amount fillId c = .ok c') (t : Address) :
    (c'.vault.ledger t).total = (c.vault.ledger t).total := by
  obtain ⟨v, fee, receives, hv, rfl⟩ := settle_ok h
  exact (settleBalances_ok hv).1 t

/-- A call that moves no token and records neither a deposit nor a withdrawal. -/
theorem Moves.still (e : Event) (htotal : ∀ t, (c'.vault.ledger t).total = (c.vault.ledger t).total)
    (htokens : c'.tokens = c.tokens) (hevents : c'.events = c.events ++ [e])
    (hin : ∀ t, e.deposited t = 0) (hout : ∀ t, e.withdrawn t = 0)
    (hcap : c.vault.feeBps ≤ maxFeeBps → c'.vault.feeBps ≤ maxFeeBps) :
    Moves here c c' (fun _ => 0) fun _ => 0 where
  total t := by rw [htotal t]
  held t := by rw [htokens]
  deposited t := by rw [deposited_of_events e hevents t, hin t]
  withdrawn t := by rw [withdrawn_of_events e hevents t, hout t]
  capped := hcap

theorem settle_moves (h : settle sender buyer seller token amount fillId c = .ok c') :
    Moves here c c' (fun _ => 0) fun _ => 0 := by
  have htotal := settle_total h
  obtain ⟨v, fee, receives, hv, rfl⟩ := settle_ok h
  refine Moves.still (.settlement fillId buyer seller token amount fee receives) htotal rfl rfl
    (fun _ => rfl) (fun _ => rfl) fun hc => ?_
  show v.feeBps ≤ maxFeeBps
  rw [(settleBalances_ok hv).2]
  exact hc

/-- The calls of the authority that change its own settings. -/
theorem admin_moves {p q : Prop} [Decidable p] [Decidable q] {e₁ e₂ : VaultError} {e : Event}
    (h : (do require p e₁; require q e₂; return { c.emit e with vault := v } : Except _ _) = .ok c')
    (hled : v.balances = c.vault.balances) (hin : ∀ t, e.deposited t = 0)
    (hout : ∀ t, e.withdrawn t = 0)
    (hcap : q → c.vault.feeBps ≤ maxFeeBps → v.feeBps ≤ maxFeeBps) :
    Moves here c c' (fun _ => 0) fun _ => 0 := by
  simp only [Guard.require_bind] at h
  obtain ⟨-, hq, h⟩ := h
  obtain rfl := Guard.pure_ok.1 h
  refine Moves.still e (fun t => ?_) rfl rfl hin hout (hcap hq)
  show (v.ledger t).total = _
  unfold Vault.ledger
  rw [hled]

end Steps

/-- What a transaction that does not revert can do. -/
theorem Tx.exec_moves {here : Address} {tx : Tx here} {c c' : Chain} (h : tx.exec c = .ok c') :
    ∃ ins outs, Moves here c c' ins outs := by
  obtain ⟨sender, hne, call⟩ := tx
  cases call with
  | deposit willing token amount => exact ⟨_, _, deposit_moves hne h⟩
  | withdraw willing token amount => exact ⟨_, _, withdraw_moves hne h⟩
  | settle buyer seller token amount fillId => exact ⟨_, _, settle_moves h⟩
  | updateAuthority a =>
    exact ⟨_, _, admin_moves h rfl (fun _ => rfl) (fun _ => rfl) fun _ hc => hc⟩
  | updateFee f => exact ⟨_, _, admin_moves h rfl (fun _ => rfl) (fun _ => rfl) fun hf _ => hf⟩
  | updateFeeRecipient a =>
    exact ⟨_, _, admin_moves h rfl (fun _ => rfl) (fun _ => rfl) fun _ hc => hc⟩
  | pause => exact ⟨_, _, admin_moves h rfl (fun _ => rfl) (fun _ => rfl) fun _ hc => hc⟩
  | unpause => exact ⟨_, _, admin_moves h rfl (fun _ => rfl) (fun _ => rfl) fun _ hc => hc⟩
  | elsewhere token holdings =>
    obtain ⟨hle, h⟩ := Guard.require_bind.1 h
    obtain rfl := Guard.pure_ok.1 h
    refine ⟨fun _ => 0, fun _ => 0, fun _ => rfl, fun t => ?_, fun _ => rfl, fun _ => rfl, id⟩
    show (c.tokens t).get here ≤ (Function.update c.tokens token holdings t).get here
    by_cases ht : t = token
    · subst ht
      rw [Function.update_self]
      exact hle
    · rw [Function.update_of_ne ht]

theorem constructVault_solvent {here authority feeRecipient : Address} {feeBps : Nat} {v : Vault}
    (h : constructVault authority feeRecipient feeBps = .ok v) (tokens : Address → Ledger Address) :
    Solvent here ⟨v, tokens, []⟩ := by
  unfold constructVault at h
  simp only [Guard.require_bind] at h
  obtain ⟨-, -, hfee, h⟩ := h
  obtain rfl := Guard.pure_ok.1 h
  have hzero : ∀ t, (Vault.ledger ⟨authority, feeBps, feeRecipient, 0, 0, fun _ _ => 0, false⟩ t).total
      = 0 := fun _ => Ledger.total_zero _ fun _ => rfl
  exact ⟨fun t => by rw [hzero t]; exact Nat.zero_le _, fun t => by rw [hzero t]; rfl, hfee⟩

theorem run_solvent {here : Address} (txs : List (Tx here)) {c : Chain} (h : Solvent here c) :
    Solvent here (run txs c) := by
  induction txs generalizing c with
  | nil => exact h
  | cons tx txs ih =>
    unfold run
    split
    · next c' hok =>
      obtain ⟨ins, outs, hm⟩ := Tx.exec_moves hok
      exact ih (hm.solvent h)
    · exact ih h

/-- Whatever is called, by whomever and in which order: the contract holds what its records say it
owes, of every token. -/
theorem vault_solvent (here authority feeRecipient : Address) (feeBps : Nat) {v : Vault}
    (hnew : constructVault authority feeRecipient feeBps = .ok v) (tokens : Address → Ledger Address)
    (txs : List (Tx here)) :
    let c := run txs ⟨v, tokens, []⟩
    (∀ t, (c.vault.ledger t).total ≤ (c.tokens t).get here) ∧
    (∀ sender buyer seller token amount fillId c',
      settle sender buyer seller token amount fillId c = .ok c' →
      ∀ t, (c'.vault.ledger t).total = (c.vault.ledger t).total) ∧
    c.vault.feeBps ≤ maxFeeBps ∧
    (∀ amount, amount * c.vault.feeBps / 10000 ≤ amount) ∧
    ∀ user t, c.vault.balances user t + c.withdrawn t ≤ c.deposited t := by
  intro c
  have hs : Solvent here c := run_solvent txs (constructVault_solvent hnew tokens)
  refine ⟨hs.covered, fun _ _ _ _ _ _ _ h => settle_total h, hs.capped, fun amount => ?_,
    fun user t => ?_⟩
  · have hcap : c.vault.feeBps ≤ 10000 := le_trans hs.capped (by decide)
    calc amount * c.vault.feeBps / 10000
        ≤ amount * 10000 / 10000 := Nat.div_le_div_right (Nat.mul_le_mul_left _ hcap)
      _ = amount := Nat.mul_div_cancel _ (by decide)
  · have hle : c.vault.balances user t ≤ (c.vault.ledger t).total :=
      (c.vault.ledger t).get_le_total user
    have := hs.recorded t
    omega

/-- A deposit of 1000 by account 3, settled from it to itself with the fee going to it as well, then
a withdrawal of 400. -/
def selfSettlement : List (Tx (.ofNat 7)) :=
  [⟨.ofNat 3, by decide, .deposit true (.ofNat 9) 1000⟩,
   ⟨.ofNat 1, by decide, .updateFeeRecipient (.ofNat 3)⟩,
   ⟨.ofNat 1, by decide, .settle (.ofNat 3) (.ofNat 3) (.ofNat 9) 1000 0⟩,
   ⟨.ofNat 3, by decide, .withdraw true (.ofNat 9) 400⟩]

theorem vault_solvent_selfSettlement :
    let v : Vault := ⟨.ofNat 1, 100, .ofNat 2, 0, 0, fun _ _ => 0, false⟩
    let c := run selfSettlement ⟨v, fun _ _ => 5000, []⟩
    (c.vault.balances (.ofNat 3) (.ofNat 9) = 600 ∧ (c.tokens (.ofNat 9)).get (.ofNat 7) = 5600) ∧
    (∀ t, (c.vault.ledger t).total ≤ (c.tokens t).get (.ofNat 7)) ∧
    ∀ user t, c.vault.balances user t + c.withdrawn t ≤ c.deposited t :=
  have hv := vault_solvent (.ofNat 7) (.ofNat 1) (.ofNat 2) 100 rfl (fun _ _ => 5000) selfSettlement
  ⟨by decide +kernel, hv.1, hv.2.2.2.2⟩

end IntentX.Evm
