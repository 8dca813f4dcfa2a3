import IntentX.Lib.Solana

/-!
# The settlement vault on Solana

`programs/intentx-settlement/src/lib.rs`, an Anchor program.  An instruction names the accounts it
wants to work on; the constraints of its context decide whether they are admitted, then the body
runs on a copy of each account, and at the end the mutable ones are written back in the order in
which the context declares them.  A failed instruction leaves everything as it was.

`UserAccount.mint` and `UserAccount.owner` say whose an account is, but nothing writes them: the
accounts of a mint are the addresses derived from it.

The keys are a type `κ`; SHA-256 and the curve test are the `create` of a `Program`.
-/

namespace IntentX.Anchor

open Lib Lib.Anchor

variable {κ : Type}

/-! ## State -/

/-- The seed lists of the program, which differ in length: `["config"]`, `["vault", config]` and
`["user", owner, mint]`. -/
inductive Seeds (κ : Type) where
  | config
  | vault (config : κ)
  | user (owner mint : κ)
  deriving DecidableEq

def maxFeeBps : Nat := 5000

structure Config (κ : Type) where
  authority : κ
  feeBps : Nat
  feeRecipient : κ
  totalSettlements : Nat
  totalVolume : Nat
  bump : Nat
  deriving DecidableEq

structure UserAccount (κ : Type) where
  owner : κ
  mint : κ
  balance : Nat
  bump : Nat
  deriving DecidableEq

/-- An account of zeroes, `Pubkey::default()` being the key of zeroes. -/
def UserAccount.zeroed {κ : Type} [Inhabited κ] : UserAccount κ := ⟨default, default, 0, 0⟩

inductive Event (κ : Type) where
  | configInitialized (authority : κ) (feeBps : Nat)
  | deposit (user mint : κ) (amount newBalance : Nat)
  | settlement (fillId : BitVec 128) (buyer seller mint : κ) (amount fee sellerReceives : Nat)
  | withdraw (user mint : κ) (amount remainingBalance : Nat)
  | authorityUpdated (oldAuthority newAuthority : κ)
  | feeUpdated (feeBps : Nat)

inductive SettlementError where
  | zeroAmount
  | insufficientBalance
  | overflow
  | feeTooHigh
  | invalidFeeRecipient
  deriving DecidableEq

/-- How an instruction fails. -/
abbrev Failure := AnchorError SettlementError

/-- The accounts by kind: those of this program, those of the token program, and the mints. -/
structure State (κ : Type) where
  configs : Accounts κ (Config κ)
  users : Accounts κ (UserAccount κ)
  tokens : Tokens κ
  mints : List κ
  events : List (Event κ)

/-! ## Instruction contexts -/

structure Initialize (κ : Type) where
  config : κ
  authority : κ
  feeRecipient : κ

structure Deposit (κ : Type) where
  config : κ
  userAccount : κ
  user : κ
  mint : κ
  userTokenAccount : κ
  vaultTokenAccount : κ

structure Settle (κ : Type) where
  config : κ
  authority : κ
  mint : κ
  buyerAccount : κ
  sellerAccount : κ
  feeAccount : κ

structure Withdraw (κ : Type) where
  config : κ
  userAccount : κ
  user : κ
  mint : κ
  userTokenAccount : κ
  vaultTokenAccount : κ
  vaultAuthority : κ

structure UpdateAuthority (κ : Type) where
  config : κ
  authority : κ

section Program

variable [DecidableEq κ] (P : Program κ (Seeds κ)) (signs : κ → Bool)

/-- Nothing has been created at the address. -/
def State.vacant (s : State κ) (k : κ) : Prop :=
  s.configs.get k = none ∧ s.users.get k = none ∧ s.tokens.get k = none ∧ k ∉ s.mints

instance (s : State κ) (k : κ) : Decidable (s.vacant k) :=
  inferInstanceAs (Decidable (_ ∧ _ ∧ _ ∧ _))

/-- `config`, as every context but `Initialize` has it. -/
def loadConfig (k : κ) (s : State κ) : Except Failure (Config κ) := do
  let config ← load s.configs k
  seedsWith P .config config.bump k
  return config

/-- `init_if_needed`: what is there, or an account of zeroes. -/
def loadOrInit [Inhabited κ] (k : κ) (s : State κ) : Except Failure (UserAccount κ) :=
  match s.users.get k with
  | some u => .ok u
  | none => do
    require (s.vacant k) .accountInUse
    return .zeroed

/-! ## Instructions -/

def initializeConfig (ctx : Initialize κ) (feeBps : Nat) (s : State κ) :
    Except Failure (State κ) := do
  let bump ← seedsFound P .config ctx.config
  require (s.vacant ctx.config) .accountInUse
  require (signs ctx.authority = true) .accountNotSigner
  require (feeBps ≤ maxFeeBps) (.custom .feeTooHigh)
  let config : Config κ :=
    { authority := ctx.authority, feeBps, feeRecipient := ctx.feeRecipient, totalSettlements := 0,
      totalVolume := 0, bump }
  return { s with
    configs := s.configs.set ctx.config config
    events := s.events ++ [.configInitialized ctx.authority feeBps] }

def deposit [Inhabited κ] (ctx : Deposit κ) (amount : Nat) (s : State κ) :
    Except Failure (State κ) := do
  let _ ← loadConfig P ctx.config s
  let _ ← seedsFound P (.user ctx.user ctx.mint) ctx.userAccount
  let account ← loadOrInit ctx.userAccount s
  require (signs ctx.user = true) .accountNotSigner
  require (ctx.mint ∈ s.mints) .accountNotInitialized
  let userToken ← load s.tokens ctx.userTokenAccount
  require (userToken.owner = ctx.user) .constraintRaw
  require (userToken.mint = ctx.mint) .constraintRaw
  let vaultToken ← load s.tokens ctx.vaultTokenAccount
  require (vaultToken.mint = ctx.mint) .constraintRaw
  -- the body
  require (0 < amount) (.custom .zeroAmount)
  let tokens ← invoke
    (Token.transfer ctx.userTokenAccount ctx.vaultTokenAccount ctx.user (signs ctx.user) amount s.tokens)
  let balance ← within (2 ^ 64) (account.balance + amount) (.custom .overflow)
  return { s with
    tokens
    users := s.users.set ctx.userAccount { account with balance }
    events := s.events ++ [.deposit ctx.user ctx.mint amount balance] }

/-- The copies a settlement works on, and what its event reports. -/
structure Settled (κ : Type) where
  config : Config κ
  buyer : UserAccount κ
  seller : UserAccount κ
  feeAccount : UserAccount κ
  fee : Nat
  sellerReceives : Nat

/-- The mutable accounts are written back in the order of the context, so that of one account the
last copy stays. -/
def Settled.writeBack (r : Settled κ) (ctx : Settle κ) (buyer seller : UserAccount κ)
    (amount : Nat) (fillId : BitVec 128) (s : State κ) : State κ :=
  { s with
    configs := s.configs.set ctx.config r.config
    users := ((s.users.set ctx.buyerAccount r.buyer).set ctx.sellerAccount r.seller).set
      ctx.feeAccount r.feeAccount
    events := s.events ++
      [.settlement fillId buyer.owner seller.owner ctx.mint amount r.fee r.sellerReceives] }

/-- `if fee > 0`: credit the fee recipient. -/
def creditFee (fee : Nat) (feeAccount : UserAccount κ) : Except Failure (UserAccount κ) :=
  if 0 < fee then do
    let balance ← within (2 ^ 64) (feeAccount.balance + fee) (.custom .overflow)
    return { feeAccount with balance }
  else .ok feeAccount

/-- The body of `settle`. -/
def settleBody (config : Config κ) (buyer seller feeAccount : UserAccount κ) (amount : Nat) :
    Except Failure (Settled κ) := do
  require (0 < amount) (.custom .zeroAmount)
  let product ← within (2 ^ 128) (amount * config.feeBps) .panicked
  let fee := product / 10000 % 2 ^ 64
  let sellerReceives ← minus amount fee (.custom .overflow)
  -- debit buyer
  require (amount ≤ buyer.balance) (.custom .insufficientBalance)
  let debited ← minus buyer.balance amount (.custom .overflow)
  -- credit seller
  let credited ← within (2 ^ 64) (seller.balance + sellerReceives) (.custom .overflow)
  let feeAccount ← creditFee fee feeAccount
  -- update global stats
  let settlements ← within (2 ^ 64) (config.totalSettlements + 1) (.custom .overflow)
  let volume ← within (2 ^ 64) (config.totalVolume + amount) (.custom .overflow)
  return {
    config := { config with totalSettlements := settlements, totalVolume := volume }
    buyer := { buyer with balance := debited }
    seller := { seller with balance := credited }
    feeAccount, fee, sellerReceives }

def settle (ctx : Settle κ) (amount : Nat) (fillId : BitVec 128) (s : State κ) :
    Except Failure (State κ) := do
  let config ← loadConfig P ctx.config s
  require (config.authority = ctx.authority) .constraintHasOne
  require (signs ctx.authority = true) .accountNotSigner
  require (ctx.mint ∈ s.mints) .accountNotInitialized
  let buyer ← load s.users ctx.buyerAccount
  seedsWith P (.user buyer.owner ctx.mint) buyer.bump ctx.buyerAccount
  let seller ← load s.users ctx.sellerAccount
  seedsWith P (.user seller.owner ctx.mint) seller.bump ctx.sellerAccount
  let feeAccount ← load s.users ctx.feeAccount
  require (feeAccount.owner = config.feeRecipient) (.custom .invalidFeeRecipient)
  seedsWith P (.user feeAccount.owner ctx.mint) feeAccount.bump ctx.feeAccount
  let r ← settleBody config buyer seller feeAccount amount
  return r.writeBack ctx buyer seller amount fillId s

def withdraw (ctx : Withdraw κ) (amount : Nat) (s : State κ) : Except Failure (State κ) := do
  let _ ← loadConfig P ctx.config s
  let account ← load s.users ctx.userAccount
  seedsWith P (.user ctx.user ctx.mint) account.bump ctx.userAccount
  require (account.owner = ctx.user) .constraintRaw
  require (signs ctx.user = true) .accountNotSigner
  require (ctx.mint ∈ s.mints) .accountNotInitialized
  let userToken ← load s.tokens ctx.userTokenAccount
  require (userToken.owner = ctx.user) .constraintRaw
  require (userToken.mint = ctx.mint) .constraintRaw
  let vaultToken ← load s.tokens ctx.vaultTokenAccount
  require (vaultToken.mint = ctx.mint) .constraintRaw
  let bump ← seedsFound P (.vault ctx.config) ctx.vaultAuthority
  -- the body
  require (0 < amount) (.custom .zeroAmount)
  require (amount ≤ account.balance) (.custom .insufficientBalance)
  let balance ← minus account.balance amount (.custom .overflow)
  let tokens ← invoke
    (Token.transfer ctx.vaultTokenAccount ctx.userTokenAccount ctx.vaultAuthority
      (P.create (.vault ctx.config) bump = some ctx.vaultAuthority) amount s.tokens)
  return { s with
    tokens
    users := s.users.set ctx.userAccount { account with balance }
    events := s.events ++ [.withdraw ctx.user ctx.mint amount balance] }

/-- `config` of `UpdateAuthority`. -/
def ownConfig (ctx : UpdateAuthority κ) (s : State κ) : Except Failure (Config κ) := do
  let config ← loadConfig P ctx.config s
  require (config.authority = ctx.authority) .constraintHasOne
  require (signs ctx.authority = true) .accountNotSigner
  return config

def updateAuthority (ctx : UpdateAuthority κ) (newAuthority : κ) (s : State κ) :
    Except Failure (State κ) := do
  let config ← ownConfig P signs ctx s
  return { s with
    configs := s.configs.set ctx.config { config with authority := newAuthority }
    events := s.events ++ [.authorityUpdated config.authority newAuthority] }

def updateFee (ctx : UpdateAuthority κ) (newFeeBps : Nat) (s : State κ) :
    Except Failure (State κ) := do
  let config ← ownConfig P signs ctx s
  require (newFeeBps ≤ maxFeeBps) (.custom .feeTooHigh)
  return { s with
    configs := s.configs.set ctx.config { config with feeBps := newFeeBps }
    events := s.events ++ [.feeUpdated newFeeBps] }

end Program

/-! ## What an instruction that goes through has checked and done -/

theorem creditFee_ok {fee : Nat} {u u' : UserAccount κ} (h : creditFee fee u = .ok u') :
    u' = { u with balance := u.balance + fee } := by
  unfold creditFee at h
  split at h
  · obtain ⟨-, h⟩ := Guard.within_bind.1 h
    exact (Guard.pure_ok.1 h).symm
  · next hz =>
    obtain rfl : fee = 0 := by omega
    cases h
    rfl

theorem settleBody_ok {amount : Nat} {config : Config κ} {buyer seller feeAccount : UserAccount κ} {r : Settled κ}
    (h : settleBody config buyer seller feeAccount amount = .ok r) :
    0 < amount ∧ amount ≤ buyer.balance ∧ r.fee ≤ amount ∧ r.config.bump = config.bump ∧
      r.buyer = { buyer with balance := buyer.balance - amount } ∧
      r.seller = { seller with balance := seller.balance + (amount - r.fee) } ∧
      r.feeAccount = { feeAccount with balance := feeAccount.balance + r.fee } := by
  unfold settleBody at h
  simp only [Guard.require_bind, Guard.within_bind, Guard.minus_bind] at h
  obtain ⟨hpos, -, hfee, hbal, -, -, h⟩ := h
  obtain ⟨u, hu, h⟩ := Guard.bind_ok.1 h
  simp only [Guard.within_bind, Guard.pure_ok] at h
  obtain ⟨-, -, rfl⟩ := h
  exact ⟨hpos, hbal, hfee, rfl, rfl, rfl, creditFee_ok hu⟩

section Effects

variable [DecidableEq κ] {P : Program κ (Seeds κ)} {signs : κ → Bool} {s s' : State κ} {amount : Nat}

theorem loadConfig_bind {β : Type} {k : κ} {f : Config κ → Except Failure β} {r : β} :
    (loadConfig P k s >>= f) = .ok r ↔
      ∃ c, s.configs.get k = some c ∧ P.create .config c.bump = some k ∧ f c = .ok r := by
  unfold loadConfig
  simp only [bind_assoc, load_bind, seedsWith_bind, pure_bind]

theorem loadOrInit_bind [Inhabited κ] {β : Type} {k : κ}
    {f : UserAccount κ → Except Failure β} {r : β} (h : (loadOrInit k s >>= f) = .ok r) :
    f ((s.users.get k).getD .zeroed) = .ok r := by
  unfold loadOrInit at h
  split at h
  · next u hu => rw [hu]; exact h
  · next hu =>
    rw [bind_assoc] at h
    rw [hu]
    exact (Guard.require_bind.1 h).2

theorem initializeConfig_users {ctx : Initialize κ} {feeBps : Nat}
    (h : initializeConfig P signs ctx feeBps s = .ok s') :
    s'.users = s.users ∧ s'.tokens = s.tokens := by
  unfold initializeConfig at h
  simp only [seedsFound_bind, Guard.require_bind, Guard.pure_ok] at h
  obtain ⟨_, -, -, -, -, rfl⟩ := h
  exact ⟨rfl, rfl⟩

theorem updateAuthority_users {ctx : UpdateAuthority κ} {a : κ}
    (h : updateAuthority P signs ctx a s = .ok s') : s'.users = s.users ∧ s'.tokens = s.tokens := by
  obtain ⟨c, -, h⟩ := Guard.bind_ok.1 h
  obtain rfl := Guard.pure_ok.1 h
  exact ⟨rfl, rfl⟩

theorem updateFee_users {ctx : UpdateAuthority κ} {f : Nat}
    (h : updateFee P signs ctx f s = .ok s') : s'.users = s.users ∧ s'.tokens = s.tokens := by
  obtain ⟨c, -, h⟩ := Guard.bind_ok.1 h
  obtain ⟨-, h⟩ := Guard.require_bind.1 h
  obtain rfl := Guard.pure_ok.1 h
  exact ⟨rfl, rfl⟩

theorem deposit_ok [Inhabited κ] {ctx : Deposit κ} (h : deposit P signs ctx amount s = .ok s') :
    ∃ bump tokens a b account, P.find (.user ctx.user ctx.mint) = some (ctx.userAccount, bump) ∧
      signs ctx.user = true ∧ a.owner = ctx.user ∧ b.mint = ctx.mint ∧
      Token.Transferred ctx.userTokenAccount ctx.vaultTokenAccount ctx.user amount s.tokens tokens a b ∧
      s'.tokens = tokens ∧ s'.configs = s.configs ∧
      (s.users.get ctx.userAccount).getD .zeroed = account ∧
      s'.users = s.users.set ctx.userAccount { account with balance := account.balance + amount } := by
  unfold deposit at h
  obtain ⟨_, -, -, h⟩ := loadConfig_bind.1 h
  obtain ⟨bump, hfind, h⟩ := seedsFound_bind.1 h
  replace h := loadOrInit_bind h
  simp only [Guard.require_bind, load_bind, invoke_bind, Guard.within_bind, Guard.pure_ok] at h
  obtain ⟨hsigns, -, a, ha, howner, -, b, hb, hmint, -, tokens, htr, -, rfl⟩ := h
  obtain ⟨a', b', ht⟩ := Token.transfer_ok htr
  obtain rfl : a = a' := Option.some.inj (ha.symm.trans ht.source)
  obtain rfl : b = b' := Option.some.inj (hb.symm.trans ht.target)
  exact ⟨bump, tokens, a, b, _, hfind, hsigns, howner, hmint, ht, rfl, rfl, rfl, rfl⟩

theorem settle_ok {ctx : Settle κ} {fillId : BitVec 128}
    (h : settle P signs ctx amount fillId s = .ok s') :
    ∃ config buyer seller feeAccount r,
      s.configs.get ctx.config = some config ∧
      s.users.get ctx.buyerAccount = some buyer ∧
      P.create (.user buyer.owner ctx.mint) buyer.bump = some ctx.buyerAccount ∧
      s.users.get ctx.sellerAccount = some seller ∧
      P.create (.user seller.owner ctx.mint) seller.bump = some ctx.sellerAccount ∧
      s.users.get ctx.feeAccount = some feeAccount ∧
      P.create (.user feeAccount.owner ctx.mint) feeAccount.bump = some ctx.feeAccount ∧
      settleBody config buyer seller feeAccount amount = .ok r ∧
      s'.tokens = s.tokens ∧ s'.configs = s.configs.set ctx.config r.config ∧
      s'.users = ((s.users.set ctx.buyerAccount r.buyer).set ctx.sellerAccount r.seller).set
        ctx.feeAccount r.feeAccount := by
  unfold settle at h
  simp only [loadConfig_bind, Guard.require_bind, load_bind, seedsWith_bind] at h
  obtain ⟨config, hc, -, -, -, -, buyer, hb, hbs, seller, hs, hss, fa, hf, -, hfs, h⟩ := h
  obtain ⟨r, hr, h⟩ := Guard.bind_ok.1 h
  obtain rfl := Guard.pure_ok.1 h
  exact ⟨config, buyer, seller, fa, r, hc, hb, hbs, hs, hss, hf, hfs, hr, rfl, rfl, rfl⟩

theorem withdraw_ok {ctx : Withdraw κ} (h : withdraw P signs ctx amount s = .ok s') :
    ∃ bump tokens account a b,
      s.users.get ctx.userAccount = some account ∧
      P.create (.user ctx.user ctx.mint) account.bump = some ctx.userAccount ∧
      account.owner = ctx.user ∧ P.find (.vault ctx.config) = some (ctx.vaultAuthority, bump) ∧
      a.mint = ctx.mint ∧ amount ≤ account.balance ∧
      Token.Transferred ctx.vaultTokenAccount ctx.userTokenAccount ctx.vaultAuthority amount s.tokens
        tokens a b ∧
      s'.tokens = tokens ∧ s'.configs = s.configs ∧
      s'.users = s.users.set ctx.userAccount { account with balance := account.balance - amount } := by
  unfold withdraw at h
  simp only [loadConfig_bind, Guard.require_bind, load_bind, seedsWith_bind, seedsFound_bind,
    Guard.minus_bind, invoke_bind, Guard.pure_ok] at h
  obtain ⟨_, -, -, account, hu, hseeds, howner, -, -, b, hb, -, -, a, ha, hmint, bump, hfind, -, -, hle,
    tokens, htr, rfl⟩ := h
  obtain ⟨a', b', ht⟩ := Token.transfer_ok htr
  obtain rfl : a = a' := Option.some.inj (ha.symm.trans ht.source)
  exact ⟨bump, tokens, account, a, b', hu, hseeds, howner, hfind, hmint, hle, ht, rfl, rfl, rfl⟩

end Effects

end IntentX.Anchor
