import IntentX.SolanaVault

/-!
# What the Solana vault owes and holds

The vault authority owns the token accounts of the vault.  `recorded` is the sum of the balances the
program has on record for a mint; it should be covered by what the vault authority holds.  It is,
along every run in which deposits go to an account of the vault authority and no settlement names
its buyer twice (`run_solvent`): the constraints ask for neither.

A user account is created full of zeroes and its `owner` and `bump` stay so, whereas `Withdraw` and
`Settle` check its address against them: no such account is ever admitted (`Blank`).
-/

namespace IntentX.Anchor

open Lib Lib.Anchor

variable {κ : Type} [DecidableEq κ] {P : Program κ (Seeds κ)}

/-! ## What is on record, and what is held -/

/-- The address is derived for a user account of the mint. -/
def OfMint (P : Program κ (Seeds κ)) (mint k : κ) : Prop :=
  ∃ owner bump, P.create (.user owner mint) bump = some k

open Classical in
/-- What an account adds to the record of a mint. -/
noncomputable def recordedAt (P : Program κ (Seeds κ)) (mint k : κ) (u : UserAccount κ) : Nat :=
  if OfMint P mint k then u.balance else 0

/-- What the vault owes of a mint, by its own records. -/
noncomputable def recorded (P : Program κ (Seeds κ)) (s : State κ) (mint : κ) : Nat :=
  s.users.sum (recordedAt P mint)

/-- The address that owns the token accounts of the vault. -/
def vaultAuthority (P : Program κ (Seeds κ)) : Option κ := do
  let (config, _) ← P.find .config
  let (authority, _) ← P.find (.vault config)
  return authority

section Record

variable {s s' : State κ} {users : Accounts κ (UserAccount κ)} {signs : κ → Bool} {amount bump : Nat}
  {authority owner mint k : κ}

omit [DecidableEq κ] in
theorem vaultAuthority_derived (h : vaultAuthority P = some authority) : P.Derived authority := by
  unfold vaultAuthority at h
  simp only [Option.bind_eq_bind, Option.bind_eq_some_iff] at h
  obtain ⟨⟨config, _⟩, -, ⟨a, _⟩, hfind, h⟩ := h
  cases h
  exact Program.find_derived hfind

/-- An account counts for the mint its address is derived from, and for no other. -/
theorem recordedAt_of_create (hP : P.CollisionFree) (h : P.create (.user owner mint) bump = some k)
    (m : κ) (u : UserAccount κ) : recordedAt P m k u = if mint = m then u.balance else 0 := by
  unfold recordedAt
  by_cases hm : mint = m
  · rw [if_pos hm, if_pos ⟨owner, bump, hm ▸ h⟩]
  · rw [if_neg hm, if_neg]
    rintro ⟨_, _, h'⟩
    obtain ⟨hs, -⟩ := hP h h'
    cases hs
    exact hm rfl

/-- Writing the balance of one account. -/
theorem sum_set_balance (hP : P.CollisionFree) (h : P.create (.user owner mint) bump = some k)
    {u : UserAccount κ} (hget : users.get k = some u) (m : κ) (u' : UserAccount κ) :
    (users.set k u').sum (recordedAt P m) + (if mint = m then u.balance else 0) =
      users.sum (recordedAt P m) + (if mint = m then u'.balance else 0) := by
  have hset := Accounts.sum_set users (k := k) (a := u') (recordedAt P m)
  rw [Accounts.share_of_get users hget] at hset
  simpa only [recordedAt_of_create hP h] using hset

theorem settle_recorded (hP : P.CollisionFree) {ctx : Settle κ} {fillId : BitVec 128}
    (h : settle P signs ctx amount fillId s = .ok s') (hseller : ctx.buyerAccount ≠ ctx.sellerAccount)
    (hfee : ctx.buyerAccount ≠ ctx.feeAccount) (m : κ) : recorded P s' m ≤ recorded P s m := by
  obtain ⟨_, buyer, seller, fee, r, -, hb, hbs, hs, hss, hf, hfs, hbody, -, -, husers⟩ := settle_ok h
  obtain ⟨-, hle, hfle, -, hrb, hrs, hrf⟩ := settleBody_ok hbody
  have hrb : r.buyer.balance = buyer.balance - amount := by rw [hrb]
  have hrs : r.seller.balance = seller.balance + (amount - r.fee) := by rw [hrs]
  have hrf : r.feeAccount.balance = fee.balance + r.fee := by rw [hrf]
  unfold recorded
  rw [husers]
  have hs₁ : (s.users.set ctx.buyerAccount r.buyer).get ctx.sellerAccount = some seller := by
    rw [Accounts.get_set_ne _ (Ne.symm hseller), hs]
  have h₁ := sum_set_balance hP hbs hb m r.buyer
  have h₂ := sum_set_balance hP hss hs₁ m r.seller
  by_cases hsf : ctx.feeAccount = ctx.sellerAccount
  · -- the copy of the fee account is written over that of the seller: less is recorded
    have hf₂ : ((s.users.set ctx.buyerAccount r.buyer).set ctx.sellerAccount r.seller).get
        ctx.feeAccount = some r.seller := by
      rw [hsf, Accounts.get_set_self]
    have h₃ := sum_set_balance hP hfs hf₂ m r.feeAccount
    obtain rfl : seller = fee := Option.some.inj (hs.symm.trans (hsf ▸ hf))
    split_ifs at h₁ h₂ h₃ <;> omega
  · have hf₂ : ((s.users.set ctx.buyerAccount r.buyer).set ctx.sellerAccount r.seller).get
        ctx.feeAccount = some fee := by
      rw [Accounts.get_set_ne _ hsf, Accounts.get_set_ne _ (Ne.symm hfee), hf]
    have h₃ := sum_set_balance hP hfs hf₂ m r.feeAccount
    split_ifs at h₁ h₂ h₃ <;> omega

/-- The copy of the seller is written over that of the buyer: the debit is lost. -/
theorem settle_recorded_self (hP : P.CollisionFree) {ctx : Settle κ} {fillId : BitVec 128}
    (h : settle P signs ctx amount fillId s = .ok s') (hseller : ctx.buyerAccount = ctx.sellerAccount)
    (hfee : ctx.buyerAccount ≠ ctx.feeAccount) :
    recorded P s' ctx.mint = recorded P s ctx.mint + amount := by
  obtain ⟨_, buyer, seller, fee, r, -, hb, hbs, hs, hss, hf, hfs, hbody, -, -, husers⟩ := settle_ok h
  obtain ⟨-, hle, hfle, -, hrb, hrs, hrf⟩ := settleBody_ok hbody
  have hrb : r.buyer.balance = buyer.balance - amount := by rw [hrb]
  have hrs : r.seller.balance = seller.balance + (amount - r.fee) := by rw [hrs]
  have hrf : r.feeAccount.balance = fee.balance + r.fee := by rw [hrf]
  obtain rfl : buyer = seller := Option.some.inj (hb.symm.trans (hseller ▸ hs))
  have hs₁ : (s.users.set ctx.buyerAccount r.buyer).get ctx.sellerAccount = some r.buyer := by
    rw [← hseller, Accounts.get_set_self]
  have hf₂ : ((s.users.set ctx.buyerAccount r.buyer).set ctx.sellerAccount r.seller).get
      ctx.feeAccount = some fee := by
    rw [Accounts.get_set_ne _ (hseller ▸ Ne.symm hfee), Accounts.get_set_ne _ (Ne.symm hfee), hf]
  have h₁ := sum_set_balance hP hbs hb ctx.mint r.buyer
  have h₂ := sum_set_balance hP hss hs₁ ctx.mint r.seller
  have h₃ := sum_set_balance hP hfs hf₂ ctx.mint r.feeAccount
  simp only [if_true] at h₁ h₂ h₃
  unfold recorded
  rw [husers]
  omega

theorem withdraw_recorded (hP : P.CollisionFree) {ctx : Withdraw κ}
    (h : withdraw P signs ctx amount s = .ok s') (m : κ) :
    recorded P s' m + (if ctx.mint = m then amount else 0) = recorded P s m := by
  obtain ⟨_, _, account, _, _, hget, hseeds, -, -, -, hle, -, -, -, husers⟩ := withdraw_ok h
  have hset := sum_set_balance hP hseeds hget m { account with balance := account.balance - amount }
  unfold recorded
  rw [husers]
  split_ifs at hset ⊢
  · simp only at hset
    omega
  · exact hset

/-- A withdrawal takes out at most what it takes off the record. -/
theorem withdraw_held (authority : κ) {ctx : Withdraw κ} (h : withdraw P signs ctx amount s = .ok s') (m : κ) :
    Token.held s.tokens authority m ≤
      Token.held s'.tokens authority m + if ctx.mint = m then amount else 0 := by
  obtain ⟨_, tokens, _, a, b, -, -, -, -, hmint, -, ht, rfl, -, -⟩ := withdraw_ok h
  by_cases hne : ctx.vaultTokenAccount = ctx.userTokenAccount
  · obtain ⟨-, hs⟩ | ⟨hd, -⟩ := ht.moved
    · rw [hs]
      exact Nat.le_add_right _ _
    · exact absurd hne hd
  · have hheld := ht.held hne authority m
    rw [hmint] at hheld
    split_ifs at hheld ⊢ <;> first | omega | grind

end Record

variable [Inhabited κ]

/-! ## Runs -/

/-- `elsewhere` is anything that happens to the accounts of the token program without this program
taking part: it does not touch what an address of the program owns. -/
inductive Instruction (P : Program κ (Seeds κ)) where
  | initializeConfig (ctx : Initialize κ) (feeBps : Nat)
  | deposit (ctx : Deposit κ) (amount : Nat)
  | settle (ctx : Settle κ) (amount : Nat) (fillId : BitVec 128)
  | withdraw (ctx : Withdraw κ) (amount : Nat)
  | updateAuthority (ctx : UpdateAuthority κ) (newAuthority : κ)
  | updateFee (ctx : UpdateAuthority κ) (newFeeBps : Nat)
  | elsewhere (mints : List κ) (change : Tokens κ → Tokens κ)
      (respects : ∀ t, Token.Respects P.Derived t (change t))

/-- An instruction and who signs it: keys that somebody holds. -/
structure Tx (P : Program κ (Seeds κ)) where
  signs : κ → Bool
  wallets : ∀ k, signs k = true → ¬ P.Derived k
  instruction : Instruction P

def Tx.exec (tx : Tx P) (s : State κ) : Except Failure (State κ) :=
  match tx.instruction with
  | .initializeConfig ctx feeBps => initializeConfig P tx.signs ctx feeBps s
  | .deposit ctx amount => deposit P tx.signs ctx amount s
  | .settle ctx amount fillId => settle P tx.signs ctx amount fillId s
  | .withdraw ctx amount => withdraw P tx.signs ctx amount s
  | .updateAuthority ctx a => updateAuthority P tx.signs ctx a s
  | .updateFee ctx f => updateFee P tx.signs ctx f s
  | .elsewhere mints change _ => .ok { s with tokens := change s.tokens, mints }

/-- The state after a transaction; one that fails leaves it as it was. -/
def Tx.after (tx : Tx P) (s : State κ) : State κ :=
  match tx.exec s with
  | .ok s' => s'
  | .error _ => s

def run (txs : List (Tx P)) (s : State κ) : State κ := txs.foldl (fun s tx => tx.after s) s

/-- Every transaction of the run that goes through satisfies `C` when it starts. -/
def Along (C : State κ → Tx P → Prop) : List (Tx P) → State κ → Prop
  | [], _ => True
  | tx :: txs, s => (∀ s', tx.exec s = .ok s' → C s tx) ∧ Along C txs (tx.after s)

/-- What one transaction preserves, a run preserves. -/
theorem run_keeps {I : State κ → Prop} {C : State κ → Tx P → Prop}
    (hstep : ∀ s tx s', I s → C s tx → tx.exec s = .ok s' → I s')
    (txs : List (Tx P)) {s : State κ} (hs : I s) (hc : Along C txs s) : I (run txs s) := by
  induction txs generalizing s with
  | nil => exact hs
  | cons tx txs ih =>
    have hafter : I (tx.after s) := by
      unfold Tx.after
      split
      · next s' h => exact hstep s tx s' hs (hc.1 s' h) h
      · exact hs
    exact ih hafter hc.2

theorem along_true (txs : List (Tx P)) (s : State κ) : Along (fun _ _ => True) txs s := by
  induction txs generalizing s with
  | nil => trivial
  | cons tx txs ih => exact ⟨fun _ _ => trivial, ih _⟩

/-- The program before its first instruction, on a chain with whatever tokens. -/
def genesis (tokens : Tokens κ) (mints : List κ) : State κ := ⟨.empty, .empty, tokens, mints, []⟩

/-! ## A chain to run on -/

/-- Keys that show how they were derived. -/
inductive Key where
  | wallet (n : Nat)
  | config (bump : Nat)
  | vault (config : Key) (bump : Nat)
  | user (owner mint : Key) (bump : Nat)
  deriving DecidableEq

instance : Inhabited Key := ⟨.wallet 0⟩

def keys : Program Key (Seeds Key) where
  create seeds bump :=
    if bump < 256 then
      match seeds with
      | .config => some (.config bump)
      | .vault config => some (.vault config bump)
      | .user owner mint => some (.user owner mint bump)
    else none

theorem keys_collisionFree : keys.CollisionFree := by
  intro s b s' b' k h h'
  simp only [keys] at h h'
  split_ifs at h h'
  cases s <;> cases s' <;> simp_all <;> grind

theorem wallet_not_derived (n : Nat) : ¬ keys.Derived (.wallet n) := by
  rintro ⟨s, b, h⟩
  simp only [keys] at h
  split_ifs at h
  cases s <;> cases h

/-- The wallet signs, alone. -/
def signedBy (n : Nat) (instruction : Instruction keys) : Tx keys where
  signs k := k = .wallet n
  wallets k hk := by
    obtain rfl : k = .wallet n := by simpa using hk
    exact wallet_not_derived n
  instruction

/-- Mint 9.  Wallet 3 has 500 in account 30; account 90 belongs to the vault authority. -/
def market : State Key :=
  genesis ((Accounts.empty.set (.wallet 30) ⟨.wallet 9, .wallet 3, 500, none, 0, false⟩).set (.wallet 90)
    ⟨.wallet 9, .vault (.config 255) 255, 0, none, 0, false⟩) [.wallet 9]

def openVault : Tx keys :=
  signedBy 1 (.initializeConfig ⟨.config 255, .wallet 1, .wallet 2⟩ 100)

/-- Wallet 3 deposits 100 into the account it names as that of the vault. -/
def depositTo (vaultTokenAccount : Key) : Tx keys :=
  signedBy 3 (.deposit ⟨.config 255, .user (.wallet 3) (.wallet 9) 255, .wallet 3, .wallet 9, .wallet 30,
    vaultTokenAccount⟩ 100)

/-! ## Solvency -/

def Solvent (P : Program κ (Seeds κ)) (authority : κ) (s : State κ) : Prop :=
  ∀ mint, recorded P s mint ≤ Token.held s.tokens authority mint

/-- A deposit goes to an account of the vault authority; a settlement does not name its buyer again
as the seller or as the fee recipient. -/
def Sound (authority : κ) (s : State κ) (tx : Tx P) : Prop :=
  match tx.instruction with
  | .deposit ctx _ => (s.tokens.get ctx.vaultTokenAccount).any fun a => a.owner = authority
  | .settle ctx _ _ => ctx.buyerAccount ≠ ctx.sellerAccount ∧ ctx.buyerAccount ≠ ctx.feeAccount
  | _ => True

section Solvency

variable {s s' : State κ} {signs : κ → Bool} {amount : Nat} {authority : κ}

theorem deposit_recorded (hP : P.CollisionFree) {ctx : Deposit κ}
    (h : deposit P signs ctx amount s = .ok s') (m : κ) :
    recorded P s' m = recorded P s m + if ctx.mint = m then amount else 0 := by
  obtain ⟨bump, _, _, _, account, hfind, -, -, -, -, -, -, hacc, husers⟩ := deposit_ok h
  have hcreate := (Program.find_spec hfind).1
  unfold recorded
  rw [husers]
  have hset := Accounts.sum_set s.users (k := ctx.userAccount)
    (a := { account with balance := account.balance + amount }) (recordedAt P m)
  -- a new account starts from nothing
  have hshare : s.users.share (recordedAt P m) ctx.userAccount =
      if ctx.mint = m then account.balance else 0 := by
    rcases hget : s.users.get ctx.userAccount with _ | u
    · rw [Accounts.share_of_none s.users hget, ← hacc, hget]
      simp [UserAccount.zeroed]
    · rw [Accounts.share_of_get s.users hget, recordedAt_of_create hP hcreate, ← hacc, hget]
      rfl
  rw [hshare, recordedAt_of_create hP hcreate] at hset
  split_ifs at hset ⊢
  · simp only at hset
    omega
  · exact hset

/-- A deposit to the vault authority brings in what it records. -/
theorem deposit_held (hw : ∀ k, signs k = true → ¬ P.Derived k) (ha : P.Derived authority)
    {ctx : Deposit κ} (h : deposit P signs ctx amount s = .ok s')
    (hto : (s.tokens.get ctx.vaultTokenAccount).any fun a => a.owner = authority) (m : κ) :
    Token.held s'.tokens authority m =
      Token.held s.tokens authority m + if ctx.mint = m then amount else 0 := by
  obtain ⟨_, tokens, a, b, _, -, hsigns, howner, hmint, ht, rfl, -, -, -⟩ := deposit_ok h
  have hb : b.owner = authority := by simpa [ht.target] using hto
  have haut : a.owner ≠ authority := fun he => hw _ hsigns (by rw [← howner, he]; exact ha)
  have hne : ctx.userTokenAccount ≠ ctx.vaultTokenAccount := by
    intro he
    have hab : a = b := Option.some.inj (ht.source.symm.trans (he ▸ ht.target))
    exact haut (hab ▸ hb)
  have hheld := ht.held hne authority m
  rw [if_neg fun hn => haut hn.1] at hheld
  simp only [hb, hmint, true_and] at hheld
  exact hheld

theorem exec_solvent (hP : P.CollisionFree) (ha : P.Derived authority) (s : State κ) (tx : Tx P)
    (s' : State κ) (hs : Solvent P authority s) (hc : Sound authority s tx)
    (h : tx.exec s = .ok s') : Solvent P authority s' := by
  obtain ⟨signs, hw, instruction⟩ := tx
  intro m
  have hm := hs m
  have hkeeps : s'.users = s.users ∧ s'.tokens = s.tokens →
      recorded P s' m ≤ Token.held s'.tokens authority m := by
    rintro ⟨hu, ht⟩
    unfold recorded
    rw [hu, ht]
    exact hm
  cases instruction with
  | initializeConfig ctx feeBps => exact hkeeps (initializeConfig_users h)
  | updateAuthority ctx a => exact hkeeps (updateAuthority_users h)
  | updateFee ctx f => exact hkeeps (updateFee_users h)
  | deposit ctx amount =>
    have hr := deposit_recorded hP h m
    have hh := deposit_held hw ha h hc m
    omega
  | settle ctx amount fillId =>
    have hr := settle_recorded hP h hc.1 hc.2 m
    obtain ⟨_, _, _, _, _, -, -, -, -, -, -, -, -, htokens, -⟩ := settle_ok h
    rw [htokens]
    omega
  | withdraw ctx amount =>
    have hr := withdraw_recorded hP h m
    have hh := withdraw_held authority h m
    omega
  | elsewhere mints change respects =>
    cases h
    exact hm.trans ((respects s.tokens).held ha m)

end Solvency

theorem run_solvent (hP : P.CollisionFree) {authority : κ} (ha : P.Derived authority)
    (txs : List (Tx P)) {s : State κ} (hs : Solvent P authority s) (hc : Along (Sound authority) txs s) :
    Solvent P authority (run txs s) :=
  run_keeps (exec_solvent hP ha) txs hs hc

/-- The vault holds what it has on record, as long as deposits go to the vault authority and no
settlement names its buyer twice. -/
theorem sound_run_solvent (hP : P.CollisionFree) (authority : κ)
    (ha : vaultAuthority P = some authority) (tokens : Tokens κ) (mints : List κ) (txs : List (Tx P))
    (hc : Along (Sound authority) txs (genesis tokens mints)) (mint : κ) :
    recorded P (run txs (genesis tokens mints)) mint ≤
      Token.held (run txs (genesis tokens mints)).tokens authority mint :=
  run_solvent hP (vaultAuthority_derived ha) txs (fun _ => Nat.zero_le _) hc mint

theorem sound_run_solvent_market :
    let s := run [openVault, depositTo (.wallet 90)] market
    Token.held s.tokens (.vault (.config 255) 255) (.wallet 9) = 100 ∧
      recorded keys s (.wallet 9) ≤ 100 := by
  intro s
  have hheld : Token.held s.tokens (.vault (.config 255) 255) (.wallet 9) = 100 := by decide +kernel
  refine ⟨hheld, hheld ▸ ?_⟩
  refine sound_run_solvent keys_collisionFree (.vault (.config 255) 255) (by decide +kernel) _ _
    [openVault, depositTo (.wallet 90)] ⟨fun _ _ => trivial, fun _ _ => ?_, trivial⟩ (.wallet 9)
  show Option.any _ _ = true
  decide +kernel

/-- The account the depositor names as that of the vault may be the one the tokens come from: the
deposit is recorded, and nothing has moved. -/
theorem deposit_to_oneself :
    let s := run [openVault, depositTo (.wallet 30)] market
    vaultAuthority keys = some (.vault (.config 255) 255) ∧
      ¬ recorded keys s (.wallet 9) ≤ Token.held s.tokens (.vault (.config 255) 255) (.wallet 9) := by
  intro s
  have hheld : Token.held s.tokens (.vault (.config 255) 255) (.wallet 9) = 0 := by decide +kernel
  have huser : s.users.get (.user (.wallet 3) (.wallet 9) 255) =
      some ⟨.wallet 0, .wallet 0, 100, 0⟩ := by decide +kernel
  have hle := s.users.share_le_sum (recordedAt keys (.wallet 9)) (.user (.wallet 3) (.wallet 9) 255)
  have hcreate : keys.create (.user (.wallet 3) (.wallet 9)) 255 =
      some (.user (.wallet 3) (.wallet 9) 255) := rfl
  rw [Accounts.share_of_get s.users huser, recordedAt_of_create keys_collisionFree hcreate,
    if_pos rfl] at hle
  refine ⟨by decide +kernel, ?_⟩
  rw [hheld]
  exact fun hz => absurd (hle.trans hz) (by decide)

/-! ## Accounts that stay blank -/

/-- The owner and the bump are zeroes, and the address was found with another bump. -/
def BlankAt (P : Program κ (Seeds κ)) (k : κ) (u : UserAccount κ) : Prop :=
  u.owner = default ∧ u.bump = 0 ∧
    ∃ owner mint bump, 0 < bump ∧ P.create (.user owner mint) bump = some k

def Blank (P : Program κ (Seeds κ)) (s : State κ) : Prop :=
  ∀ k u, s.users.get k = some u → BlankAt P k u

section Blank

variable {s s' : State κ} {users : Accounts κ (UserAccount κ)} {signs : κ → Bool} {amount : Nat}

/-- Writing balances leaves the accounts blank. -/
theorem blank_set {k : κ} {u : UserAccount κ} (h : ∀ k u, users.get k = some u → BlankAt P k u)
    (hu : BlankAt P k u) (n : Nat) :
    ∀ k' u', (users.set k { u with balance := n }).get k' = some u' → BlankAt P k' u' := by
  intro k' u' hget
  rw [Accounts.get_set] at hget
  split at hget
  · next he => subst he; cases hget; exact hu
  · exact h k' u' hget

omit [DecidableEq κ] in
/-- A blank account is at no address derived with its own bump. -/
theorem BlankAt.not_admitted (hP : P.CollisionFree) {k owner mint : κ} {u : UserAccount κ}
    (h : BlankAt P k u) : P.create (.user owner mint) u.bump ≠ some k := by
  intro hk
  obtain ⟨-, hbump, _, _, bump, hpos, hcreate⟩ := h
  obtain ⟨-, hb⟩ := hP hk hcreate
  omega

theorem deposit_blank {ctx : Deposit κ} (hs : Blank P s) (h : deposit P signs ctx amount s = .ok s') :
    Blank P s' := by
  obtain ⟨bump, _, _, _, account, hfind, -, -, -, -, -, -, hacc, husers⟩ := deposit_ok h
  obtain ⟨hcreate, hpos⟩ := Program.find_spec hfind
  unfold Blank
  rw [husers]
  refine blank_set hs ?_ _
  rw [← hacc]
  rcases hget : s.users.get ctx.userAccount with _ | u
  · exact ⟨rfl, rfl, _, _, bump, hpos, hcreate⟩
  · exact hs _ u hget

theorem settle_rejected (hP : P.CollisionFree) (hs : Blank P s) {ctx : Settle κ} {fillId : BitVec 128} :
    settle P signs ctx amount fillId s ≠ .ok s' := by
  intro h
  obtain ⟨_, buyer, _, _, _, -, hget, hseeds, -⟩ := settle_ok h
  exact (hs _ _ hget).not_admitted hP hseeds

theorem withdraw_rejected (hP : P.CollisionFree) (hs : Blank P s) {ctx : Withdraw κ} :
    withdraw P signs ctx amount s ≠ .ok s' := by
  intro h
  obtain ⟨_, _, account, _, _, hget, hseeds, -⟩ := withdraw_ok h
  exact (hs _ _ hget).not_admitted hP hseeds

theorem exec_blank (hP : P.CollisionFree) (s : State κ) (tx : Tx P) (s' : State κ) (hs : Blank P s)
    (h : tx.exec s = .ok s') : Blank P s' := by
  obtain ⟨signs, hw, instruction⟩ := tx
  unfold Blank
  cases instruction with
  | initializeConfig ctx feeBps => rw [(initializeConfig_users h).1]; exact hs
  | deposit ctx amount => exact deposit_blank hs h
  | settle ctx amount fillId => exact absurd h (settle_rejected hP hs)
  | withdraw ctx amount => exact absurd h (withdraw_rejected hP hs)
  | updateAuthority ctx a => rw [(updateAuthority_users h).1]; exact hs
  | updateFee ctx f => rw [(updateFee_users h).1]; exact hs
  | elsewhere mints change respects => cases h; exact hs

end Blank

theorem run_blank (hP : P.CollisionFree) (tokens : Tokens κ) (mints : List κ) (txs : List (Tx P)) :
    Blank P (run txs (genesis tokens mints)) :=
  run_keeps (fun s tx s' hs _ h => exec_blank hP s tx s' hs h) txs
    (fun _ _ h => nomatch h) (along_true txs _)

/-- Some choice of accounts lets the user withdraw the amount. -/
def Withdrawable (P : Program κ (Seeds κ)) (s : State κ) (user mint : κ) (amount : Nat) : Prop :=
  ∃ (signs : κ → Bool) (ctx : Withdraw κ) (s' : State κ), ctx.user = user ∧ ctx.mint = mint ∧
    withdraw P signs ctx amount s = .ok s'

/-- Nothing that was deposited can be withdrawn. -/
theorem deposits_not_withdrawable (hP : P.CollisionFree) (tokens : Tokens κ) (mints : List κ)
    (txs : List (Tx P)) (user mint : κ) (amount : Nat) :
    ¬ Withdrawable P (run txs (genesis tokens mints)) user mint amount := by
  rintro ⟨signs, ctx, s', -, -, h⟩
  exact withdraw_rejected hP (run_blank hP tokens mints txs) h

/-- Wallet 3 has 100 on record and the vault holds them, but they cannot be withdrawn. -/
theorem deposit_stuck :
    let s := run [openVault, depositTo (.wallet 90)] market
    s.users.get (.user (.wallet 3) (.wallet 9) 255) = some ⟨.wallet 0, .wallet 0, 100, 0⟩ ∧
      Token.held s.tokens (.vault (.config 255) 255) (.wallet 9) = 100 ∧
      ¬ Withdrawable keys s (.wallet 3) (.wallet 9) 100 := by
  refine ⟨by decide +kernel, by decide +kernel, ?_⟩
  rintro ⟨signs, ctx, s', -, -, h⟩
  exact withdraw_rejected keys_collisionFree (run_blank keys_collisionFree _ _ _) h

theorem deposits_not_withdrawable_market :
    ¬ Withdrawable keys (run [openVault, depositTo (.wallet 90)] market) (.wallet 3) (.wallet 9) 1 :=
  deposits_not_withdrawable keys_collisionFree _ _ [openVault, depositTo (.wallet 90)] _ _ _

end IntentX.Anchor
