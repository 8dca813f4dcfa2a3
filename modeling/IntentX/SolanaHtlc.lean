import IntentX.Lib.Solana

/-!
# Hash time locked contracts on Solana

`programs/intentx-htlc/src/lib.rs`: a sender locks tokens in an escrow that only the program can sign
for; whoever knows the preimage of the hashlock has them sent to the receiver, and from the timelock
on the sender can have them back.  The accounts of a contract sit at addresses derived from the
hashlock.

SHA-256 is the parameter `sha256`, the clock is part of the state.
-/

namespace IntentX.AnchorHtlc

open Lib Lib.Anchor

variable {κ : Type}

abbrev Bytes32 := BitVec 256

/-! ## State -/

/-- `["htlc", hashlock]` and `["escrow", hashlock]`. -/
inductive Seeds where
  | htlc (hashlock : Bytes32)
  | escrow (hashlock : Bytes32)
  deriving DecidableEq

structure Htlc (κ : Type) where
  sender : κ
  receiver : κ
  mint : κ
  hashlock : Bytes32
  timelock : Int
  amount : Nat
  claimed : Bool
  refunded : Bool
  bump : Nat
  escrowBump : Nat
  deriving DecidableEq

inductive Event (κ : Type) where
  | fundsLocked (htlc sender receiver mint : κ) (hashlock : Bytes32) (timelock : Int) (amount : Nat)
  | fundsClaimed (htlc receiver : κ) (secret : Bytes32) (amount : Nat)
  | fundsRefunded (htlc sender : κ) (amount : Nat)

inductive HtlcError where
  | zeroAmount
  | timelockInPast
  | invalidSecret
  | alreadyClaimed
  | alreadyRefunded
  | timelockNotExpired
  | wrongReceiver
  deriving DecidableEq

abbrev Failure := AnchorError HtlcError

structure State (κ : Type) where
  htlcs : Accounts κ (Htlc κ)
  tokens : Tokens κ
  mints : List κ
  /-- `Clock::get()?.unix_timestamp` -/
  now : Int
  events : List (Event κ)

/-! ## Instruction contexts -/

structure LockFunds (κ : Type) where
  htlc : κ
  escrowTokenAccount : κ
  sender : κ
  receiver : κ
  mint : κ
  senderTokenAccount : κ

structure Claim (κ : Type) where
  htlc : κ
  escrowTokenAccount : κ
  receiverTokenAccount : κ

structure Refund (κ : Type) where
  htlc : κ
  sender : κ
  escrowTokenAccount : κ
  senderTokenAccount : κ

section Program

variable [DecidableEq κ] (P : Program κ Seeds) (sha256 : Bytes32 → Bytes32) (signs : κ → Bool)

/-- Nothing has been created at the address. -/
def State.vacant (s : State κ) (k : κ) : Prop :=
  s.htlcs.get k = none ∧ s.tokens.get k = none ∧ k ∉ s.mints

instance (s : State κ) (k : κ) : Decidable (s.vacant k) :=
  inferInstanceAs (Decidable (_ ∧ _ ∧ _))

/-! ## Instructions -/

def lockFunds (ctx : LockFunds κ) (hashlock : Bytes32) (timelock : Int) (amount : Nat) (s : State κ) :
    Except Failure (State κ) := do
  let bump ← seedsFound P (.htlc hashlock) ctx.htlc
  let escrowBump ← seedsFound P (.escrow hashlock) ctx.escrowTokenAccount
  require (signs ctx.sender = true) .accountNotSigner
  require (ctx.mint ∈ s.mints) .accountNotInitialized
  let senderToken ← load s.tokens ctx.senderTokenAccount
  require (s.vacant ctx.htlc) .accountInUse
  require (s.vacant ctx.escrowTokenAccount ∧ ctx.escrowTokenAccount ≠ ctx.htlc) .accountInUse
  require (senderToken.owner = ctx.sender) .constraintRaw
  require (senderToken.mint = ctx.mint) .constraintRaw
  -- the escrow is created as its own authority
  let tokens := s.tokens.set ctx.escrowTokenAccount
    ⟨ctx.mint, ctx.escrowTokenAccount, 0, none, 0, false⟩
  -- the body
  require (0 < amount) (.custom .zeroAmount)
  require (s.now < timelock) (.custom .timelockInPast)
  let tokens ← invoke (Token.transfer ctx.senderTokenAccount ctx.escrowTokenAccount ctx.sender
    (signs ctx.sender) amount tokens)
  return { s with
    tokens
    htlcs := s.htlcs.set ctx.htlc
      { sender := ctx.sender, receiver := ctx.receiver, mint := ctx.mint, hashlock, timelock, amount,
        claimed := false, refunded := false, bump, escrowBump }
    events := s.events ++
      [.fundsLocked ctx.htlc ctx.sender ctx.receiver ctx.mint hashlock timelock amount] }

/-- `htlc` and `escrow_token_account`, as `Claim` and `Refund` have them. -/
def loadOpen (htlcKey escrowKey : κ) (s : State κ) : Except Failure (Htlc κ) := do
  let htlc ← load s.htlcs htlcKey
  seedsWith P (.htlc htlc.hashlock) htlc.bump htlcKey
  require (htlc.claimed = false) (.custom .alreadyClaimed)
  require (htlc.refunded = false) (.custom .alreadyRefunded)
  let _ ← load s.tokens escrowKey
  seedsWith P (.escrow htlc.hashlock) htlc.escrowBump escrowKey
  return htlc

/-- The transfer out of the escrow, which the program signs with the seeds of the escrow. -/
def payOut (htlc : Htlc κ) (escrowKey dst : κ) (s : State κ) : Except Failure (Tokens κ) :=
  invoke (Token.transfer escrowKey dst escrowKey
    (P.create (.escrow htlc.hashlock) htlc.escrowBump = some escrowKey) htlc.amount s.tokens)

def claim (ctx : Claim κ) (secret : Bytes32) (s : State κ) : Except Failure (State κ) := do
  let htlc ← loadOpen P ctx.htlc ctx.escrowTokenAccount s
  let receiverToken ← load s.tokens ctx.receiverTokenAccount
  require (receiverToken.owner = htlc.receiver) (.custom .wrongReceiver)
  require (receiverToken.mint = htlc.mint) .constraintRaw
  -- the body
  require (htlc.claimed = false) (.custom .alreadyClaimed)
  require (htlc.refunded = false) (.custom .alreadyRefunded)
  require (sha256 secret = htlc.hashlock) (.custom .invalidSecret)
  let tokens ← payOut P htlc ctx.escrowTokenAccount ctx.receiverTokenAccount s
  return { s with
    tokens
    htlcs := s.htlcs.set ctx.htlc { htlc with claimed := true }
    events := s.events ++ [.fundsClaimed ctx.htlc htlc.receiver secret htlc.amount] }

def refund (ctx : Refund κ) (s : State κ) : Except Failure (State κ) := do
  let htlc ← loadOpen P ctx.htlc ctx.escrowTokenAccount s
  require (htlc.sender = ctx.sender) .constraintHasOne
  require (signs ctx.sender = true) .accountNotSigner
  let senderToken ← load s.tokens ctx.senderTokenAccount
  require (senderToken.owner = ctx.sender) .constraintRaw
  require (senderToken.mint = htlc.mint) .constraintRaw
  -- the body
  require (htlc.claimed = false) (.custom .alreadyClaimed)
  require (htlc.refunded = false) (.custom .alreadyRefunded)
  require (htlc.timelock ≤ s.now) (.custom .timelockNotExpired)
  let tokens ← payOut P htlc ctx.escrowTokenAccount ctx.senderTokenAccount s
  return { s with
    tokens
    htlcs := s.htlcs.set ctx.htlc { htlc with refunded := true }
    events := s.events ++ [.fundsRefunded ctx.htlc htlc.sender htlc.amount] }

end Program

/-! ## Runs -/

section Runs

variable [DecidableEq κ] {P : Program κ Seeds} (sha256 : Bytes32 → Bytes32)

/-- `elsewhere` is anything that happens to the accounts of the token program without this program
taking part. -/
inductive Instruction (P : Program κ Seeds) where
  | lockFunds (ctx : LockFunds κ) (hashlock : Bytes32) (timelock : Int) (amount : Nat)
  | claim (ctx : Claim κ) (secret : Bytes32)
  | refund (ctx : Refund κ)
  | elsewhere (mints : List κ) (change : Tokens κ → Tokens κ)
      (respects : ∀ t, Token.Respects P.Derived t (change t))

/-- An instruction, who signs it, and how much later than the one before it runs. -/
structure Tx (P : Program κ Seeds) where
  signs : κ → Bool
  wallets : ∀ k, signs k = true → ¬ P.Derived k
  elapsed : Nat
  instruction : Instruction P

def Tx.exec (tx : Tx P) (s : State κ) : Except Failure (State κ) :=
  match tx.instruction with
  | .lockFunds ctx hashlock timelock amount => lockFunds P tx.signs ctx hashlock timelock amount s
  | .claim ctx secret => claim P sha256 ctx secret s
  | .refund ctx => refund P tx.signs ctx s
  | .elsewhere mints change _ => .ok { s with tokens := change s.tokens, mints }

/-- The state a transaction finds. -/
def Tx.before (tx : Tx P) (s : State κ) : State κ := { s with now := s.now + tx.elapsed }

/-- The state after a transaction; one that fails leaves it as it was. -/
def Tx.after (tx : Tx P) (s : State κ) : State κ :=
  match tx.exec sha256 (tx.before s) with
  | .ok s' => s'
  | .error _ => tx.before s

def run (txs : List (Tx P)) (s : State κ) : State κ := txs.foldl (fun s tx => tx.after sha256 s) s

/-- The program before its first instruction, on a chain with whatever tokens. -/
def genesis (tokens : Tokens κ) (mints : List κ) (now : Int) : State κ :=
  ⟨.empty, tokens, mints, now, []⟩

end Runs

end IntentX.AnchorHtlc
