import IntentX.EvmVault
import IntentX.SolanaSolvency

/-!
# The two vaults settle alike

The Solidity contract says that it mirrors the Anchor program.  The two compute in different widths
(`uint256` against `u64` with a `u128` product that is cut back) and check in a different order.  On
distinct accounts, amounts of 64 bits and a fee rate up to the cap, and as long as the results fit
into 64 bits, a settlement goes through on the one exactly when it does on the other, and leaves the
same balances and counters (`settle_agree`).
-/

namespace IntentX.Anchor

open Lib Lib.Anchor

variable {κ : Type} [DecidableEq κ]

/-- The accounts of the context are there and satisfy every constraint. -/
structure Admitted (P : Program κ (Seeds κ)) (signs : κ → Bool) (ctx : Settle κ) (s : State κ)
    (config : Config κ) (buyer seller fee : UserAccount κ) : Prop where
  configAt : s.configs.get ctx.config = some config
  configSeeds : P.create .config config.bump = some ctx.config
  authority : config.authority = ctx.authority
  signer : signs ctx.authority = true
  mint : ctx.mint ∈ s.mints
  buyerAt : s.users.get ctx.buyerAccount = some buyer
  buyerSeeds : P.create (.user buyer.owner ctx.mint) buyer.bump = some ctx.buyerAccount
  sellerAt : s.users.get ctx.sellerAccount = some seller
  sellerSeeds : P.create (.user seller.owner ctx.mint) seller.bump = some ctx.sellerAccount
  feeAt : s.users.get ctx.feeAccount = some fee
  feeRecipient : fee.owner = config.feeRecipient
  feeSeeds : P.create (.user fee.owner ctx.mint) fee.bump = some ctx.feeAccount

/-- The same balances, fee rate and counters on both chains. -/
structure Mirrors (config : Config κ) (buyer seller fee : UserAccount κ) (v : Evm.Vault)
    (buyerAddr sellerAddr token : Evm.Address) : Prop where
  feeBps : v.feeBps = config.feeBps
  totalSettlements : v.totalSettlements = config.totalSettlements
  totalVolume : v.totalVolume = config.totalVolume
  buyer : v.balances buyerAddr token = buyer.balance
  seller : v.balances sellerAddr token = seller.balance
  fee : v.balances v.feeRecipient token = fee.balance

/-- What a settlement leaves fits into 64 bits. -/
structure Fits (config : Config κ) (seller fee : UserAccount κ) (amount : Nat) : Prop where
  seller : seller.balance + (amount - amount * config.feeBps / 10000) < 2 ^ 64
  fee : fee.balance + amount * config.feeBps / 10000 < 2 ^ 64
  totalSettlements : config.totalSettlements + 1 < 2 ^ 64
  totalVolume : config.totalVolume + amount < 2 ^ 64

variable {P : Program κ (Seeds κ)} {signs : κ → Bool} {ctx : Settle κ} {s : State κ}
  {config : Config κ} {buyer seller fee : UserAccount κ} {amount : Nat} {fillId : BitVec 128}

omit [DecidableEq κ] in
theorem fee_le (hcap : config.feeBps ≤ maxFeeBps) (amount : Nat) : amount * config.feeBps / 10000 ≤ amount := by
  have hle : config.feeBps ≤ 10000 := le_trans hcap (by decide)
  calc amount * config.feeBps / 10000
      ≤ amount * 10000 / 10000 := Nat.div_le_div_right (Nat.mul_le_mul_left _ hle)
    _ = amount := Nat.mul_div_cancel _ (by decide)

omit [DecidableEq κ] in
/-- The body of the Anchor settlement, when the results fit. -/
theorem settleBody_eq (hamount : amount < 2 ^ 64) (hcap : config.feeBps ≤ maxFeeBps)
    (hfits : Fits config seller fee amount) (hpos : 0 < amount) (hbal : amount ≤ buyer.balance) :
    ∃ r, settleBody config buyer seller fee amount = .ok r ∧
      r.config = { config with
        totalSettlements := config.totalSettlements + 1
        totalVolume := config.totalVolume + amount } ∧
      r.buyer.balance = buyer.balance - amount ∧
      r.seller.balance = seller.balance + (amount - amount * config.feeBps / 10000) ∧
      r.feeAccount.balance = fee.balance + amount * config.feeBps / 10000 := by
  have hle := fee_le hcap amount
  have hcut : amount * config.feeBps / 10000 % 2 ^ 64 = amount * config.feeBps / 10000 :=
    Nat.mod_eq_of_lt (hle.trans_lt hamount)
  have hprod : amount * config.feeBps < 2 ^ 128 := by
    have hb : config.feeBps < 2 ^ 64 := lt_of_le_of_lt hcap (by decide)
    calc amount * config.feeBps < 2 ^ 64 * 2 ^ 64 := Nat.mul_lt_mul'' hamount hb
      _ = 2 ^ 128 := by decide
  have hcredit : creditFee (amount * config.feeBps / 10000) fee =
      .ok { fee with balance := fee.balance + amount * config.feeBps / 10000 } := by
    unfold creditFee
    split
    · exact Guard.within_bind.2 ⟨hfits.fee, rfl⟩
    · next hz =>
      obtain hz : amount * config.feeBps / 10000 = 0 := by omega
      rw [hz]
      rfl
  refine ⟨⟨{ config with
      totalSettlements := config.totalSettlements + 1
      totalVolume := config.totalVolume + amount },
    { buyer with balance := buyer.balance - amount },
    { seller with balance := seller.balance + (amount - amount * config.feeBps / 10000) },
    { fee with balance := fee.balance + amount * config.feeBps / 10000 },
    amount * config.feeBps / 10000, amount - amount * config.feeBps / 10000⟩, ?_, rfl, rfl, rfl, rfl⟩
  unfold settleBody
  simp only [Guard.require_bind, Guard.within_bind, Guard.minus_bind, hcut]
  refine ⟨hpos, hprod, hle, hbal, hbal, hfits.seller, ?_⟩
  rw [hcredit]
  exact Guard.within_bind.2 ⟨hfits.totalSettlements, Guard.within_bind.2 ⟨hfits.totalVolume, rfl⟩⟩

/-- With the accounts admitted, the settlement is its body and the write-back. -/
theorem Admitted.settle_iff (h : Admitted P signs ctx s config buyer seller fee) {s' : State κ} :
    settle P signs ctx amount fillId s = .ok s' ↔
      ∃ r, settleBody config buyer seller fee amount = .ok r ∧
        r.writeBack ctx buyer seller amount fillId s = s' := by
  unfold settle
  simp only [loadConfig_bind, Guard.require_bind, load_bind, seedsWith_bind]
  constructor
  · rintro ⟨c, hc, -, -, -, -, b, hb, -, sl, hs, -, f, hf, -, -, hok⟩
    obtain rfl : config = c := Option.some.inj (h.configAt.symm.trans hc)
    obtain rfl : buyer = b := Option.some.inj (h.buyerAt.symm.trans hb)
    obtain rfl : seller = sl := Option.some.inj (h.sellerAt.symm.trans hs)
    obtain rfl : fee = f := Option.some.inj (h.feeAt.symm.trans hf)
    obtain ⟨r, hr, hs'⟩ := Guard.bind_ok.1 hok
    exact ⟨r, hr, Guard.pure_ok.1 hs'⟩
  · rintro ⟨r, hr, rfl⟩
    exact ⟨config, h.configAt, h.configSeeds, h.authority, h.signer, h.mint, buyer, h.buyerAt,
      h.buyerSeeds, seller, h.sellerAt, h.sellerSeeds, fee, h.feeAt, h.feeRecipient, h.feeSeeds,
      Guard.bind_ok.2 ⟨r, hr, rfl⟩⟩

end IntentX.Anchor

namespace IntentX.Evm

open Lib Lib.Anchor

variable {buyer seller token : Address} {amount : Nat} {v : Vault}

/-- The checks a settlement has passed. -/
theorem settleBalances_checks {r : Vault × Nat × Nat}
    (h : settleBalances buyer seller token amount v = .ok r) :
    0 < amount ∧ amount ≤ v.balances buyer token := by
  unfold settleBalances at h
  obtain ⟨hpos, h⟩ := Guard.require_bind.1 h
  obtain ⟨-, h⟩ := Guard.within_bind.1 h
  obtain ⟨-, h⟩ := Guard.minus_bind.1 h
  obtain ⟨hbal, -⟩ := Guard.require_bind.1 h
  omega

/-- All but the balances. -/
def Vault.settings (v : Vault) : Nat × Address × Nat × Nat :=
  (v.feeBps, v.feeRecipient, v.totalSettlements, v.totalVolume)

/-- Without a fee the recipient is not written at all, which comes to the same. -/
theorem creditFee_eq (token : Address) (fee : Nat) (h : v.balances v.feeRecipient token + fee < 2 ^ 256) :
    ∃ v', creditFee token fee v = .ok v' ∧ v'.settings = v.settings ∧
      v'.balances v.feeRecipient token = v.balances v.feeRecipient token + fee ∧
      ∀ u, u ≠ v.feeRecipient → v'.balances u token = v.balances u token := by
  unfold creditFee
  split
  · exact ⟨_, Guard.within_bind.2 ⟨h, rfl⟩, rfl, balances_setBalance_self v _ token _,
      fun u hu => balances_setBalance_ne hu v token _⟩
  · next hz =>
    obtain rfl : fee = 0 := by omega
    exact ⟨v, rfl, rfl, rfl, fun _ _ => rfl⟩

/-- The Solidity settlement between three accounts, when nothing overflows. -/
theorem settleBalances_eq {fee : Nat} (hfee : amount * v.feeBps / 10000 = fee)
    (hseller : seller ≠ buyer) (hrb : v.feeRecipient ≠ buyer) (hrs : v.feeRecipient ≠ seller)
    (hpos : 0 < amount) (hbal : amount ≤ v.balances buyer token) (hle : fee ≤ amount)
    (hprod : amount * v.feeBps < 2 ^ 256)
    (hfits : v.balances seller token + (amount - fee) < 2 ^ 256)
    (hfits' : v.balances v.feeRecipient token + fee < 2 ^ 256)
    (hsett : v.totalSettlements + 1 < 2 ^ 256) (hvol : v.totalVolume + amount < 2 ^ 256) :
    ∃ v', settleBalances buyer seller token amount v = .ok (v', fee, amount - fee) ∧
      v'.settings = (v.feeBps, v.feeRecipient, v.totalSettlements + 1, v.totalVolume + amount) ∧
      v'.balances buyer token = v.balances buyer token - amount ∧
      v'.balances seller token = v.balances seller token + (amount - fee) ∧
      v'.balances v.feeRecipient token = v.balances v.feeRecipient token + fee := by
  generalize hv₁ : v.setBalance buyer token (v.balances buyer token - amount) = v₁
  generalize hv₂ : v₁.setBalance seller token (v₁.balances seller token + (amount - fee)) = v₂
  have hs₁ : v₁.balances seller token = v.balances seller token := by
    rw [← hv₁]; exact balances_setBalance_ne hseller v token _
  have hr₂ : v₂.balances v.feeRecipient token = v.balances v.feeRecipient token := by
    rw [← hv₂, balances_setBalance_ne hrs, ← hv₁, balances_setBalance_ne hrb]
  have hset₂ : v₂.settings = v.settings := by rw [← hv₂, ← hv₁]; rfl
  have hrec : v₂.feeRecipient = v.feeRecipient := congrArg (·.2.1) hset₂
  obtain ⟨v₃, hv₃, hset₃, hr₃, hrest₃⟩ := creditFee_eq (v := v₂) token fee
    (by rw [hrec, hr₂]; exact hfits')
  rw [hrec] at hr₃ hrest₃
  have hset : v₃.settings = v.settings := hset₃.trans hset₂
  have hsettlements : v₃.totalSettlements = v.totalSettlements := congrArg (·.2.2.1) hset
  have hvolume : v₃.totalVolume = v.totalVolume := congrArg (·.2.2.2) hset
  refine ⟨{ v₃ with totalSettlements := v₃.totalSettlements + 1,
                    totalVolume := v₃.totalVolume + amount }, ?_, ?_, ?_, ?_, hr₃.trans (by rw [hr₂])⟩
  · unfold settleBalances
    refine Guard.require_bind.2 ⟨by omega, Guard.within_bind.2 ⟨hprod, ?_⟩⟩
    rw [hfee]
    refine Guard.minus_bind.2 ⟨hle, Guard.require_bind.2 ⟨by omega, Guard.minus_bind.2 ⟨hbal, ?_⟩⟩⟩
    rw [hv₁]
    refine Guard.within_bind.2 ⟨by rw [hs₁]; exact hfits, ?_⟩
    rw [hv₂]
    exact Guard.bind_ok.2 ⟨v₃, hv₃, Guard.within_bind.2 ⟨by rw [hsettlements]; exact hsett,
      Guard.within_bind.2 ⟨by rw [hvolume]; exact hvol, rfl⟩⟩⟩
  · rw [← hsettlements, ← hvolume, ← show v₃.feeBps = v.feeBps from congrArg (·.1) hset,
      ← show v₃.feeRecipient = v.feeRecipient from congrArg (·.2.1) hset]
    rfl
  · show v₃.balances buyer token = _
    rw [hrest₃ buyer (Ne.symm hrb), ← hv₂, balances_setBalance_ne (Ne.symm hseller), ← hv₁,
      balances_setBalance_self]
  · show v₃.balances seller token = _
    rw [hrest₃ seller (Ne.symm hrs), ← hv₂, balances_setBalance_self, hs₁]

/-- Called by the authority while not paused, the settlement is what it does to the balances. -/
theorem settle_iff {sender : Address} {fillId : BitVec 128} {c c' : Chain}
    (hauth : sender = c.vault.authority) (hpause : c.vault.paused = false) :
    settle sender buyer seller token amount fillId c = .ok c' ↔
      ∃ v fee receives, settleBalances buyer seller token amount c.vault = .ok (v, fee, receives) ∧
        { c with vault := v }.emit
          (.settlement fillId buyer seller token amount fee receives) = c' := by
  unfold settle
  simp only [Guard.require_bind, hauth, hpause, true_and]
  constructor
  · rintro ⟨-, h⟩
    obtain ⟨⟨v, fee, receives⟩, hv, h⟩ := Guard.bind_ok.1 h
    exact ⟨v, fee, receives, hv, Guard.pure_ok.1 h⟩
  · rintro ⟨v, fee, receives, hv, rfl⟩
    exact ⟨Bool.false_ne_true, Guard.bind_ok.2 ⟨_, hv, rfl⟩⟩

end IntentX.Evm

namespace IntentX.Anchor

open Lib Lib.Anchor

variable {κ : Type} [DecidableEq κ]

section Agreement

variable {P : Program κ (Seeds κ)} {signs : κ → Bool} {ctx : Settle κ} {s s' : State κ}
  {config : Config κ} {buyer seller fee : UserAccount κ} {amount : Nat} {fillId : BitVec 128}
  {v : Evm.Vault} {sender buyerAddr sellerAddr token : Evm.Address}

omit [DecidableEq κ] in
/-- The balances and counters of the Solidity settlement, said in those of the Anchor one. -/
theorem Mirrors.settleBalances (h : Mirrors config buyer seller fee v buyerAddr sellerAddr token)
    (hseller : buyerAddr ≠ sellerAddr) (hbf : buyerAddr ≠ v.feeRecipient)
    (hsf : sellerAddr ≠ v.feeRecipient) (hamount : amount < 2 ^ 64)
    (hcap : config.feeBps ≤ maxFeeBps) (hfits : Fits config seller fee amount) (hpos : 0 < amount)
    (hbal : amount ≤ buyer.balance) :
    ∃ r v' fee' receives, settleBody config buyer seller fee amount = .ok r ∧
      Evm.settleBalances buyerAddr sellerAddr token amount v = .ok (v', fee', receives) ∧
      Mirrors r.config r.buyer r.seller r.feeAccount v' buyerAddr sellerAddr token := by
  obtain ⟨r, hr, hrc, hrb, hrs, hrf⟩ := settleBody_eq hamount hcap hfits hpos hbal
  have hle := fee_le hcap amount
  have hwide : (2 : Nat) ^ 64 ≤ 2 ^ 256 := by decide
  have hprod : amount * v.feeBps < 2 ^ 256 := by
    have hb : v.feeBps < 2 ^ 64 := by
      rw [h.feeBps]; exact lt_of_le_of_lt hcap (by decide)
    calc amount * v.feeBps < 2 ^ 64 * 2 ^ 64 := Nat.mul_lt_mul'' hamount hb
      _ ≤ 2 ^ 256 := by decide
  obtain ⟨v', hv', hset, hb, hs, hf⟩ := Evm.settleBalances_eq (v := v) (by rw [h.feeBps])
    (Ne.symm hseller) (Ne.symm hbf) (Ne.symm hsf) hpos (by rw [h.buyer]; exact hbal) hle hprod
    (by rw [h.seller]; exact hfits.seller.trans_le hwide)
    (by rw [h.fee]; exact hfits.fee.trans_le hwide)
    (by rw [h.totalSettlements]; exact hfits.totalSettlements.trans_le hwide)
    (by rw [h.totalVolume]; exact hfits.totalVolume.trans_le hwide)
  have hrec : v'.feeRecipient = v.feeRecipient := congrArg (·.2.1) hset
  refine ⟨r, v', _, _, hr, hv', ?_, ?_, ?_, ?_, ?_, ?_⟩
  · rw [hrc, ← h.feeBps]; exact congrArg (·.1) hset
  · rw [hrc]
    show v'.totalSettlements = config.totalSettlements + 1
    rw [← h.totalSettlements]; exact congrArg (·.2.2.1) hset
  · rw [hrc]
    show v'.totalVolume = config.totalVolume + amount
    rw [← h.totalVolume]; exact congrArg (·.2.2.2) hset
  · rw [hb, hrb, h.buyer]
  · rw [hs, hrs, h.seller]
  · rw [hrec, hf, hrf, h.fee]

/-- One settlement on both chains, from the same balances, rate and counters. -/
theorem settle_agree {c : Evm.Chain}
    (hadmitted : Admitted P signs ctx s config buyer seller fee)
    (hauth : sender = c.vault.authority) (hpause : c.vault.paused = false)
    (hseller : ctx.buyerAccount ≠ ctx.sellerAccount) (hbf : ctx.buyerAccount ≠ ctx.feeAccount)
    (hsf : ctx.sellerAccount ≠ ctx.feeAccount)
    (hseller' : buyerAddr ≠ sellerAddr) (hbf' : buyerAddr ≠ c.vault.feeRecipient)
    (hsf' : sellerAddr ≠ c.vault.feeRecipient)
    (hsame : Mirrors config buyer seller fee c.vault buyerAddr sellerAddr token)
    (hamount : amount < 2 ^ 64) (hcap : config.feeBps ≤ maxFeeBps)
    (hfits : Fits config seller fee amount) :
    ((∃ s', settle P signs ctx amount fillId s = .ok s') ↔
      ∃ c', Evm.settle sender buyerAddr sellerAddr token amount fillId c = .ok c') ∧
    ∀ s' c', settle P signs ctx amount fillId s = .ok s' →
      Evm.settle sender buyerAddr sellerAddr token amount fillId c = .ok c' →
      ∃ config' buyer' seller' fee', s'.configs.get ctx.config = some config' ∧
        s'.users.get ctx.buyerAccount = some buyer' ∧
        s'.users.get ctx.sellerAccount = some seller' ∧ s'.users.get ctx.feeAccount = some fee' ∧
        Mirrors config' buyer' seller' fee' c'.vault buyerAddr sellerAddr token := by
  have hboth := fun hpos hbal =>
    hsame.settleBalances hseller' hbf' hsf' hamount hcap hfits hpos hbal
  refine ⟨⟨?_, ?_⟩, ?_⟩
  · rintro ⟨s', hs'⟩
    obtain ⟨r, hr, -⟩ := hadmitted.settle_iff.1 hs'
    obtain ⟨hpos, hbal, -⟩ := settleBody_ok hr
    obtain ⟨_, v', fee', receives, -, hv', -⟩ := hboth hpos hbal
    exact ⟨_, (Evm.settle_iff hauth hpause).2 ⟨v', fee', receives, hv', rfl⟩⟩
  · rintro ⟨c', hc'⟩
    obtain ⟨_, _, _, hv, -⟩ := (Evm.settle_iff hauth hpause).1 hc'
    obtain ⟨hpos, hbal⟩ := Evm.settleBalances_checks hv
    rw [hsame.buyer] at hbal
    obtain ⟨r, _, _, _, hr, -, -⟩ := hboth hpos hbal
    exact ⟨_, hadmitted.settle_iff.2 ⟨r, hr, rfl⟩⟩
  · intro s' c' hs' hc'
    obtain ⟨r, hr, rfl⟩ := hadmitted.settle_iff.1 hs'
    obtain ⟨v', _, _, hv', rfl⟩ := (Evm.settle_iff hauth hpause).1 hc'
    obtain ⟨hpos, hbal, -⟩ := settleBody_ok hr
    obtain ⟨r₀, v₀, _, _, hr₀, hv₀, hm⟩ := hboth hpos hbal
    obtain rfl : r₀ = r := Except.ok.inj (hr₀.symm.trans hr)
    obtain rfl : v₀ = v' := congrArg Prod.fst (Except.ok.inj (hv₀.symm.trans hv'))
    refine ⟨r₀.config, r₀.buyer, r₀.seller, r₀.feeAccount, ?_, ?_, ?_, ?_, hm⟩
    · exact Accounts.get_set_self _
    · show (Accounts.set _ ctx.feeAccount _).get ctx.buyerAccount = _
      rw [Accounts.get_set_ne _ hbf, Accounts.get_set_ne _ hseller, Accounts.get_set_self]
    · show (Accounts.set _ ctx.feeAccount _).get ctx.sellerAccount = _
      rw [Accounts.get_set_ne _ hsf, Accounts.get_set_self]
    · exact Accounts.get_set_self _

end Agreement

/-- Wallets 3 and 4 trade mint 9, wallet 2 gets the fee of 1%. -/
def tradeConfig : Config Key := ⟨.wallet 1, 100, .wallet 2, 0, 0, 255⟩

/-- The account of a wallet for mint 9. -/
def tradeAccount (n balance : Nat) : UserAccount Key := ⟨.wallet n, .wallet 9, balance, 255⟩

def tradeState : State Key where
  configs := Accounts.empty.set (.config 255) tradeConfig
  users := ((Accounts.empty.set (.user (.wallet 3) (.wallet 9) 255) (tradeAccount 3 1000)).set
    (.user (.wallet 4) (.wallet 9) 255) (tradeAccount 4 50)).set
    (.user (.wallet 2) (.wallet 9) 255) (tradeAccount 2 7)
  tokens := .empty
  mints := [.wallet 9]
  events := []

def tradeAccounts : Settle Key :=
  ⟨.config 255, .wallet 1, .wallet 9, .user (.wallet 3) (.wallet 9) 255,
    .user (.wallet 4) (.wallet 9) 255, .user (.wallet 2) (.wallet 9) 255⟩

def tradeChain : Evm.Chain where
  vault := ⟨.ofNat 1, 100, .ofNat 2, 0, 0, fun u _ =>
    if u = .ofNat 3 then 1000 else if u = .ofNat 4 then 50 else if u = .ofNat 2 then 7 else 0, false⟩
  tokens := fun _ _ => 0
  events := []

theorem settle_agree_trade :
    (settle keys (fun k => k = .wallet 1) tradeAccounts 300 0 tradeState).toOption.isSome = true ∧
    ((∃ s', settle keys (fun k => k = .wallet 1) tradeAccounts 300 0 tradeState = .ok s') ↔
      ∃ c', Evm.settle (.ofNat 1) (.ofNat 3) (.ofNat 4) (.ofNat 9) 300 0 tradeChain = .ok c') := by
  have hadmitted : Admitted keys (fun k => k = .wallet 1) tradeAccounts tradeState tradeConfig
      (tradeAccount 3 1000) (tradeAccount 4 50) (tradeAccount 2 7) := by
    constructor <;> decide +kernel
  have hsame : Mirrors tradeConfig (tradeAccount 3 1000) (tradeAccount 4 50) (tradeAccount 2 7)
      tradeChain.vault (.ofNat 3) (.ofNat 4) (.ofNat 9) := by
    constructor <;> decide +kernel
  exact ⟨by decide +kernel,
    (settle_agree hadmitted rfl rfl (by decide) (by decide) (by decide) (by decide) (by decide)
      (by decide) hsame (by decide) (by decide) ⟨by decide, by decide, by decide, by decide⟩).1⟩

end IntentX.Anchor
