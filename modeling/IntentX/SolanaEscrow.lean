import IntentX.SolanaHtlc

/-!
# The escrow of a hash time locked contract

Each contract has an escrow of its own: the second contract that would use an escrow cannot be
created, since its account is there already.  So what one instruction does to another contract is at
most to add tokens to its escrow, and the instructions on the contract itself are stopped by its two
flags (`after_cases`).

From the moment it is locked a contract keeps its terms, its escrow covers the amount until it is
paid out, it is paid out at most once, and only for the secret or, from the timelock on, back to the
sender who signs for it (`escrow_safe`).
-/

namespace IntentX.AnchorHtlc

open Lib Lib.Anchor

variable {κ : Type} [DecidableEq κ] {P : Program κ Seeds} {sha256 : Bytes32 → Bytes32}

/-! ## What is paid out -/

/-- A transfer out of the escrow: whose account it went to, the secret if it was a claim, who had
signed, and when it was. -/
structure Payout (κ : Type) where
  owner : κ
  secret : Option Bytes32
  signs : κ → Bool
  time : Int

/-- The transfer a transaction makes for the contract at `k`, if it goes through. -/
def Tx.payout (tx : Tx P) (k : κ) (s : State κ) : Option (Payout κ) :=
  match tx.instruction with
  | .claim ctx secret =>
    if ctx.htlc = k then
      (s.tokens.get ctx.receiverTokenAccount).map fun t => ⟨t.owner, some secret, tx.signs, s.now⟩
    else none
  | .refund ctx =>
    if ctx.htlc = k then
      (s.tokens.get ctx.senderTokenAccount).map fun t => ⟨t.owner, none, tx.signs, s.now⟩
    else none
  | _ => none

def Tx.paid (sha256 : Bytes32 → Bytes32) (tx : Tx P) (k : κ) (s : State κ) : List (Payout κ) :=
  match tx.exec sha256 (tx.before s) with
  | .ok _ => (tx.payout k (tx.before s)).toList
  | .error _ => []

/-- What is paid out for the contract at `k` along a run. -/
def payouts (sha256 : Bytes32 → Bytes32) (k : κ) : List (Tx P) → State κ → List (Payout κ)
  | [], _ => []
  | tx :: txs, s => tx.paid sha256 k s ++ payouts sha256 k txs (tx.after sha256 s)

def State.balance (s : State κ) (k : κ) : Nat := (s.tokens.get k).elim 0 (·.amount)

/-- By how much the transactions of a run lower the balance of an account. -/
def takenFrom (sha256 : Bytes32 → Bytes32) (k : κ) : List (Tx P) → State κ → Nat
  | [], _ => 0
  | tx :: txs, s =>
    (s.balance k - (tx.after sha256 s).balance k) + takenFrom sha256 k txs (tx.after sha256 s)

/-- What never changes. -/
def Htlc.terms (h : Htlc κ) : κ × κ × κ × Bytes32 × Int × Nat × Nat :=
  (h.sender, h.receiver, h.mint, h.hashlock, h.timelock, h.amount, h.escrowBump)

def Htlc.isOpen (h : Htlc κ) : Bool := !h.claimed && !h.refunded

/-- The claim reveals the secret and pays the receiver; the refund is signed by the sender, not
before the timelock, and pays the sender. -/
def Payout.Due (sha256 : Bytes32 → Bytes32) (h : Htlc κ) (p : Payout κ) : Prop :=
  (∃ x, p.secret = some x ∧ sha256 x = h.hashlock ∧ p.owner = h.receiver) ∨
    (p.secret = none ∧ p.owner = h.sender ∧ p.signs h.sender = true ∧ h.timelock ≤ p.time)

/-! ## What an instruction that goes through has checked and done -/

section Effects

variable {signs : κ → Bool} {s s' : State κ}

theorem lockFunds_ok {ctx : LockFunds κ} {hashlock : Bytes32} {timelock : Int} {amount : Nat}
    (h : lockFunds P signs ctx hashlock timelock amount s = .ok s') :
    ∃ bump escrowBump a b, P.find (.escrow hashlock) = some (ctx.escrowTokenAccount, escrowBump) ∧
      signs ctx.sender = true ∧ a.owner = ctx.sender ∧ s.vacant ctx.htlc ∧
      s.vacant ctx.escrowTokenAccount ∧
      Token.Transferred ctx.senderTokenAccount ctx.escrowTokenAccount ctx.sender amount
        (s.tokens.set ctx.escrowTokenAccount ⟨ctx.mint, ctx.escrowTokenAccount, 0, none, 0, false⟩)
        s'.tokens a b ∧
      s'.htlcs = s.htlcs.set ctx.htlc ⟨ctx.sender, ctx.receiver, ctx.mint, hashlock, timelock, amount,
        false, false, bump, escrowBump⟩ := by
  unfold lockFunds at h
  simp only [seedsFound_bind, load_bind, Guard.require_bind, invoke_bind, Guard.pure_ok] at h
  obtain ⟨bump, -, escrowBump, hfind, hsigns, -, a, ha, hvac, ⟨hvac', -⟩, howner, -, -, -, tokens, htr,
    rfl⟩ := h
  obtain ⟨a', b, ht⟩ := Token.transfer_ok htr
  have hne : ctx.senderTokenAccount ≠ ctx.escrowTokenAccount := by
    intro he
    rw [he, hvac'.2.1] at ha
    cases ha
  have hsrc := ht.source
  rw [Accounts.get_set_ne _ hne] at hsrc
  obtain rfl : a = a' := Option.some.inj (ha.symm.trans hsrc)
  exact ⟨bump, escrowBump, a, b, hfind, hsigns, howner, hvac, hvac', ht, rfl⟩

/-- The contract at `k` is paid out to `dst` and becomes `h'`. -/
structure PaidOut (P : Program κ Seeds) (s s' : State κ) (k escrow dst : κ) (h h' : Htlc κ)
    (a b : TokenAccount κ) : Prop where
  htlc : s.htlcs.get k = some h
  wasOpen : h.isOpen = true
  isClosed : h'.isOpen = false
  terms : h'.terms = h.terms
  seeds : P.create (.escrow h.hashlock) h.escrowBump = some escrow
  moved : Token.Transferred escrow dst escrow h.amount s.tokens s'.tokens a b
  htlcs : s'.htlcs = s.htlcs.set k h'

theorem loadOpen_bind {β : Type} {k e : κ} {f : Htlc κ → Except Failure β} {r : β} :
    (loadOpen P k e s >>= f) = .ok r ↔ ∃ h, s.htlcs.get k = some h ∧
      P.create (.htlc h.hashlock) h.bump = some k ∧ h.claimed = false ∧ h.refunded = false ∧
      (∃ t, s.tokens.get e = some t ∧
        P.create (.escrow h.hashlock) h.escrowBump = some e ∧ f h = .ok r) := by
  unfold loadOpen
  simp only [bind_assoc, load_bind, seedsWith_bind, Guard.require_bind, pure_bind]

theorem claim_ok {ctx : Claim κ} {secret : Bytes32} (h : claim P sha256 ctx secret s = .ok s') :
    ∃ htlc htlc' a b, PaidOut P s s' ctx.htlc ctx.escrowTokenAccount ctx.receiverTokenAccount htlc htlc'
        a b ∧ b.owner = htlc.receiver ∧ sha256 secret = htlc.hashlock := by
  unfold claim payOut at h
  simp only [loadOpen_bind, load_bind, Guard.require_bind, invoke_bind, Guard.pure_ok] at h
  obtain ⟨htlc, hget, -, hclaimed, hrefunded, -, -, hescrow, b, hb, howner, -, -, -, hsecret, tokens, htr,
    rfl⟩ := h
  obtain ⟨a, b', ht⟩ := Token.transfer_ok htr
  obtain rfl : b = b' := Option.some.inj (hb.symm.trans ht.target)
  refine ⟨htlc, { htlc with claimed := true }, a, b, ⟨hget, ?_, rfl, rfl, hescrow, ht, rfl⟩, howner,
    hsecret⟩
  simp [Htlc.isOpen, hclaimed, hrefunded]

theorem refund_ok {ctx : Refund κ} (h : refund P signs ctx s = .ok s') :
    ∃ htlc htlc' a b, PaidOut P s s' ctx.htlc ctx.escrowTokenAccount ctx.senderTokenAccount htlc htlc'
        a b ∧ b.owner = htlc.sender ∧ signs htlc.sender = true ∧ htlc.timelock ≤ s.now := by
  unfold refund payOut at h
  simp only [loadOpen_bind, load_bind, Guard.require_bind, invoke_bind, Guard.pure_ok] at h
  obtain ⟨htlc, hget, -, hclaimed, hrefunded, -, -, hescrow, hsender, hsigns, b, hb, howner, -, -, -,
    htime, tokens, htr, rfl⟩ := h
  obtain ⟨a, b', ht⟩ := Token.transfer_ok htr
  obtain rfl : b = b' := Option.some.inj (hb.symm.trans ht.target)
  refine ⟨htlc, { htlc with refunded := true }, a, b, ⟨hget, ?_, ?_, rfl, hescrow, ht, rfl⟩,
    howner.trans hsender.symm, hsender ▸ hsigns, htime⟩
  · simp [Htlc.isOpen, hclaimed, hrefunded]
  · simp [Htlc.isOpen]

end Effects

/-! ## Escrows -/

/-- Every contract has an escrow that belongs to itself and, until it is paid out, covers the amount;
no two contracts share one. -/
structure Valid (P : Program κ Seeds) (s : State κ) : Prop where
  covered : ∀ k h, s.htlcs.get k = some h → ∃ e t,
    P.create (.escrow h.hashlock) h.escrowBump = some e ∧ s.tokens.get e = some t ∧ t.owner = e ∧
    (h.isOpen = true → h.amount ≤ t.amount)
  own : ∀ k k' h h' e, s.htlcs.get k = some h → s.htlcs.get k' = some h' →
    P.create (.escrow h.hashlock) h.escrowBump = some e →
    P.create (.escrow h'.hashlock) h'.escrowBump = some e → k = k'

/-- The accounts the program can sign for stay with it, and none but those in `x` loses tokens. -/
def Keeps (P : Program κ Seeds) (x : κ → Prop) (s s' : State κ) : Prop :=
  ∀ e t, s.tokens.get e = some t → P.Derived t.owner →
    ∃ t', s'.tokens.get e = some t' ∧ t'.owner = t.owner ∧ (¬ x e → t.amount ≤ t'.amount)

section Steps

variable {signs : κ → Bool} {s s' : State κ} {k e dst : κ} {h h' : Htlc κ} {a b : TokenAccount κ}

omit [DecidableEq κ] in
theorem terms_escrow (ht : h'.terms = h.terms) :
    P.create (.escrow h'.hashlock) h'.escrowBump = P.create (.escrow h.hashlock) h.escrowBump := by
  have hl : h'.hashlock = h.hashlock := congrArg (·.2.2.2.1) ht
  have hb : h'.escrowBump = h.escrowBump := congrArg (·.2.2.2.2.2.2) ht
  rw [hl, hb]

theorem PaidOut.keeps (hp : PaidOut P s s' k e dst h h' a b) : Keeps P (· = e) s s' := by
  intro e' t ht _
  obtain ⟨t', hget, -, howner, hle⟩ := hp.moved.get ht
  exact ⟨t', hget, howner, hle⟩

theorem PaidOut.valid (hp : PaidOut P s s' k e dst h h' a b) (hv : Valid P s) : Valid P s' := by
  -- every contract after the payment was one before it, with the same escrow
  have hback : ∀ k₁ h₁, s'.htlcs.get k₁ = some h₁ → ∃ h₀, s.htlcs.get k₁ = some h₀ ∧
      h₁.terms = h₀.terms ∧ (h₁.isOpen = true → k₁ ≠ k ∧ h₁ = h₀) := by
    intro k₁ h₁ hget
    rw [hp.htlcs, Accounts.get_set] at hget
    split at hget
    · next he =>
      cases hget
      refine ⟨h, he ▸ hp.htlc, hp.terms, fun ho => ?_⟩
      rw [hp.isClosed] at ho
      cases ho
    · next hne => exact ⟨h₁, hget, rfl, fun _ => ⟨hne, rfl⟩⟩
  constructor
  · intro k₁ h₁ hget
    obtain ⟨h₀, hget₀, hterms, hopen⟩ := hback k₁ h₁ hget
    obtain ⟨e₁, t, hc, ht, howner, hle⟩ := hv.covered k₁ h₀ hget₀
    obtain ⟨t', ht', howner', hle'⟩ := hp.keeps e₁ t ht (howner ▸ ⟨_, _, hc⟩)
    refine ⟨e₁, t', (terms_escrow hterms).trans hc, ht', howner'.trans howner, fun ho => ?_⟩
    obtain ⟨hne, rfl⟩ := hopen ho
    have hne' : e₁ ≠ e := fun he => hne (hv.own _ _ _ _ e hget₀ hp.htlc (he ▸ hc) hp.seeds)
    exact (hle ho).trans (hle' hne')
  · intro k₁ k₂ h₁ h₂ e' hget₁ hget₂ hc₁ hc₂
    obtain ⟨h₀₁, hget₀₁, hterms₁, -⟩ := hback k₁ h₁ hget₁
    obtain ⟨h₀₂, hget₀₂, hterms₂, -⟩ := hback k₂ h₂ hget₂
    exact hv.own k₁ k₂ h₀₁ h₀₂ e' hget₀₁ hget₀₂ (terms_escrow hterms₁ ▸ hc₁)
      (terms_escrow hterms₂ ▸ hc₂)

theorem lockFunds_keeps (hw : ∀ k, signs k = true → ¬ P.Derived k) {ctx : LockFunds κ}
    {hashlock : Bytes32} {timelock : Int} {amount : Nat}
    (hok : lockFunds P signs ctx hashlock timelock amount s = .ok s') :
    Keeps P (fun _ => False) s s' := by
  obtain ⟨_, _, a, b, -, hsigns, howner, -, hvac, ht, -⟩ := lockFunds_ok hok
  intro e t hget hd
  have hne : e ≠ ctx.escrowTokenAccount := by
    rintro rfl
    rw [hvac.2.1] at hget
    cases hget
  have hget' := (Accounts.get_set_ne s.tokens (a := ⟨ctx.mint, ctx.escrowTokenAccount, 0, none, 0, false⟩)
    hne).trans hget
  obtain ⟨t', ht', -, ho, hle⟩ := ht.get hget'
  refine ⟨t', ht', ho, fun _ => hle ?_⟩
  -- the account the sender pays from is a wallet's, not the program's
  rintro rfl
  obtain rfl : a = t := Option.some.inj (ht.source.symm.trans hget')
  exact hw _ hsigns (howner ▸ hd)

theorem lockFunds_valid (hw : ∀ k, signs k = true → ¬ P.Derived k) {ctx : LockFunds κ}
    {hashlock : Bytes32} {timelock : Int} {amount : Nat}
    (hok : lockFunds P signs ctx hashlock timelock amount s = .ok s') (hv : Valid P s) :
    Valid P s' := by
  have hkeeps := lockFunds_keeps hw hok
  obtain ⟨bump, escrowBump, a, b, hfind, hsigns, howner, -, hvac, ht, hhtlcs⟩ := lockFunds_ok hok
  have hcreate := (Program.find_spec hfind).1
  have hderived : P.Derived ctx.escrowTokenAccount := ⟨_, _, hcreate⟩
  have hb : b = ⟨ctx.mint, ctx.escrowTokenAccount, 0, none, 0, false⟩ :=
    Option.some.inj (ht.target.symm.trans (Accounts.get_set_self _))
  have hnew : ∃ t, s'.tokens.get ctx.escrowTokenAccount = some t ∧ t.owner = ctx.escrowTokenAccount ∧
      amount ≤ t.amount := by
    obtain ⟨he, -⟩ | ⟨-, a', -, -, -, htokens⟩ := ht.moved
    · -- the sender does not own the new escrow
      have hab : a = b := Option.some.inj (ht.source.symm.trans (he ▸ ht.target))
      rw [hab, hb] at howner
      exact absurd (howner ▸ hderived) (hw _ hsigns)
    · rw [htokens, Accounts.get_set_self, hb]
      exact ⟨_, rfl, rfl, Nat.le_add_left _ _⟩
  have hfresh : ∀ k₁ h₁, s.htlcs.get k₁ = some h₁ →
      P.create (.escrow h₁.hashlock) h₁.escrowBump ≠ some ctx.escrowTokenAccount := by
    intro k₁ h₁ hget hc
    obtain ⟨e₁, t, hc', ht', -⟩ := hv.covered k₁ h₁ hget
    obtain rfl := Option.some.inj (hc'.symm.trans hc)
    rw [hvac.2.1] at ht'
    cases ht'
  constructor
  · intro k₁ h₁ hget
    rw [hhtlcs, Accounts.get_set] at hget
    split at hget
    · cases hget
      obtain ⟨t, hget, ho, hle⟩ := hnew
      exact ⟨_, t, hcreate, hget, ho, fun _ => hle⟩
    · obtain ⟨e₁, t, hc, ht', ho, hle⟩ := hv.covered k₁ h₁ hget
      obtain ⟨t', hget', ho', hle'⟩ := hkeeps e₁ t ht' (ho ▸ ⟨_, _, hc⟩)
      exact ⟨e₁, t', hc, hget', ho'.trans ho, fun hopen => (hle hopen).trans (hle' not_false)⟩
  · intro k₁ k₂ h₁ h₂ e' hget₁ hget₂ hc₁ hc₂
    rw [hhtlcs, Accounts.get_set] at hget₁ hget₂
    split at hget₁ <;> split at hget₂
    · next hk₁ hk₂ => rw [hk₁, hk₂]
    · cases hget₁
      obtain rfl := Option.some.inj (hcreate.symm.trans hc₁)
      exact absurd hc₂ (hfresh k₂ h₂ hget₂)
    · cases hget₂
      obtain rfl := Option.some.inj (hcreate.symm.trans hc₂)
      exact absurd hc₁ (hfresh k₁ h₁ hget₁)
    · exact hv.own k₁ k₂ h₁ h₂ e' hget₁ hget₂ hc₁ hc₂

theorem elsewhere_keeps {change : Tokens κ → Tokens κ} (mints : List κ)
    (hr : Token.Respects P.Derived s.tokens (change s.tokens)) :
    Keeps P (fun _ => False) s { s with tokens := change s.tokens, mints } := by
  intro e t hget hd
  obtain ⟨t', hget', -, ho, hle⟩ := hr e t hget hd
  exact ⟨t', hget', ho, fun _ => hle⟩

theorem elsewhere_valid {change : Tokens κ → Tokens κ} {mints : List κ}
    (hr : Token.Respects P.Derived s.tokens (change s.tokens)) (hv : Valid P s) :
    Valid P { s with tokens := change s.tokens, mints } := by
  refine ⟨fun k h hget => ?_, hv.own⟩
  obtain ⟨e, t, hc, ht, ho, hle⟩ := hv.covered k h hget
  obtain ⟨t', ht', ho', hle'⟩ := elsewhere_keeps mints hr e t ht (ho ▸ ⟨_, _, hc⟩)
  exact ⟨e, t', hc, ht', ho'.trans ho, fun hopen => (hle hopen).trans (hle' not_false)⟩

/-- What keeps the tokens of an escrow keeps its balance. -/
theorem Keeps.balance {x : κ → Prop} (hk : Keeps P x s s') (hv : Valid P s)
    (hget : s.htlcs.get k = some h) (he : P.create (.escrow h.hashlock) h.escrowBump = some e)
    (hx : ¬ x e) : s.balance e ≤ s'.balance e := by
  obtain ⟨e', t, hc, ht, ho, -⟩ := hv.covered k h hget
  obtain rfl := Option.some.inj (hc.symm.trans he)
  obtain ⟨t', ht', -, hle⟩ := hk e' t ht (ho ▸ ⟨_, _, hc⟩)
  unfold State.balance
  rw [ht, ht']
  exact hle hx

/-- A payment takes at most the amount out of the escrow. -/
theorem PaidOut.balance (hp : PaidOut P s s' k e dst h h' a b) :
    s.balance e ≤ s'.balance e + h.amount := by
  unfold State.balance
  have hsrc := hp.moved.source
  obtain ⟨-, hs⟩ | ⟨hne, a', -, -, hamt, hs⟩ := hp.moved.moved
  · rw [hs]
    exact Nat.le_add_right _ _
  · rw [hs, Accounts.get_set_ne _ hne, Accounts.get_set_self, hsrc]
    simp only [Option.elim_some, hamt]
    omega

theorem valid_before (tx : Tx P) (hv : Valid P s) : Valid P (tx.before s) := ⟨hv.covered, hv.own⟩

end Steps

/-- What a transaction can do to a contract: nothing but adding tokens to its escrow, or paying it
out while it is open. -/
inductive Outcome (sha256 : Bytes32 → Bytes32) (s s' : State κ) (k e : κ) (h : Htlc κ) :
    List (Payout κ) → Prop where
  | kept : s'.htlcs.get k = some h → s.balance e ≤ s'.balance e → Outcome sha256 s s' k e h []
  | paid (h' : Htlc κ) (p : Payout κ) : h.isOpen = true → h'.isOpen = false → h'.terms = h.terms →
      s'.htlcs.get k = some h' → s.balance e ≤ s'.balance e + h.amount → p.Due sha256 h →
      Outcome sha256 s s' k e h [p]

section Run

variable {s : State κ} {k e : κ} {h : Htlc κ}

/-- A payment for some contract, seen from the contract at `k`. -/
theorem PaidOut.outcome {s' : State κ} {k' e' dst : κ} {h₀ h₀' : Htlc κ} {a b : TokenAccount κ}
    (hp : PaidOut P s s' k' e' dst h₀ h₀' a b) (hv : Valid P s) (hget : s.htlcs.get k = some h)
    (he : P.create (.escrow h.hashlock) h.escrowBump = some e) {secret : Option Bytes32}
    {signs : κ → Bool} (hdue : Payout.Due sha256 h₀ ⟨b.owner, secret, signs, s.now⟩) :
    Outcome sha256 s s' k e h (if k' = k then (s.tokens.get dst).map
      fun t => (⟨t.owner, secret, signs, s.now⟩ : Payout κ) else none).toList := by
  by_cases hk : k' = k
  · subst hk
    obtain rfl : h = h₀ := Option.some.inj (hget.symm.trans hp.htlc)
    obtain rfl : e = e' := Option.some.inj (he.symm.trans hp.seeds)
    rw [if_pos rfl, hp.moved.target]
    refine .paid h₀' _ hp.wasOpen hp.isClosed hp.terms ?_ hp.balance hdue
    rw [hp.htlcs, Accounts.get_set_self]
  · rw [if_neg hk]
    refine .kept ?_ (hp.keeps.balance hv hget he fun hee => ?_)
    · rw [hp.htlcs, Accounts.get_set_ne _ (Ne.symm hk), hget]
    · exact hk (hv.own k k' h h₀ e hget hp.htlc he (hee ▸ hp.seeds)).symm

theorem exec_valid (tx : Tx P) {s' : State κ} (hok : tx.exec sha256 s = .ok s') (hv : Valid P s) :
    Valid P s' := by
  obtain ⟨signs, hw, elapsed, instruction⟩ := tx
  cases instruction with
  | lockFunds ctx hashlock timelock amount => exact lockFunds_valid hw hok hv
  | claim ctx secret =>
    obtain ⟨_, _, _, _, hp, -⟩ := claim_ok hok
    exact hp.valid hv
  | refund ctx =>
    obtain ⟨_, _, _, _, hp, -⟩ := refund_ok hok
    exact hp.valid hv
  | elsewhere mints change respects =>
    cases hok
    exact elsewhere_valid (respects _) hv

theorem exec_outcome (tx : Tx P) {s' : State κ} (hok : tx.exec sha256 s = .ok s') (hv : Valid P s)
    (hget : s.htlcs.get k = some h) (he : P.create (.escrow h.hashlock) h.escrowBump = some e) :
    Outcome sha256 s s' k e h (tx.payout k s).toList := by
  obtain ⟨signs, hw, elapsed, instruction⟩ := tx
  cases instruction with
  | lockFunds ctx hashlock timelock amount =>
    refine .kept ?_ ((lockFunds_keeps hw hok).balance hv hget he not_false)
    obtain ⟨_, _, _, _, -, -, -, hvac, -, -, hhtlcs⟩ := lockFunds_ok hok
    have hne : k ≠ ctx.htlc := by
      rintro rfl
      rw [hvac.1] at hget
      cases hget
    rw [hhtlcs, Accounts.get_set_ne _ hne, hget]
  | claim ctx secret =>
    obtain ⟨_, _, _, b, hp, howner, hsecret⟩ := claim_ok hok
    exact hp.outcome hv hget he (.inl ⟨secret, rfl, hsecret, howner⟩)
  | refund ctx =>
    obtain ⟨_, _, _, b, hp, howner, hsigns, htime⟩ := refund_ok hok
    exact hp.outcome hv hget he (.inr ⟨rfl, howner, hsigns, htime⟩)
  | elsewhere mints change respects =>
    cases hok
    exact .kept hget ((elsewhere_keeps mints (respects s.tokens)).balance hv hget he not_false)

variable (sha256)

theorem after_valid (tx : Tx P) (hv : Valid P s) : Valid P (tx.after sha256 s) := by
  unfold Tx.after
  split
  · next s' hok => exact exec_valid tx hok (valid_before tx hv)
  · exact valid_before tx hv

theorem after_outcome (tx : Tx P) (hv : Valid P s) (hget : s.htlcs.get k = some h)
    (he : P.create (.escrow h.hashlock) h.escrowBump = some e) :
    Outcome sha256 s (tx.after sha256 s) k e h (tx.paid sha256 k s) := by
  unfold Tx.after Tx.paid
  rcases hok : tx.exec sha256 (tx.before s) with er | s'
  · exact .kept hget (Nat.le_refl _)
  · show Outcome sha256 s s' k e h (tx.payout k (tx.before s)).toList
    have hout := exec_outcome tx hok (valid_before tx hv) hget he
    -- the clock is not part of what an outcome speaks about
    generalize (tx.payout k (tx.before s)).toList = paid at hout
    cases hout with
    | kept hget' hle => exact .kept hget' hle
    | paid h' p hopen hclosed hterms hget' hle hdue =>
      exact .paid h' p hopen hclosed hterms hget' hle hdue

theorem run_valid (txs : List (Tx P)) (hv : Valid P s) : Valid P (run sha256 txs s) := by
  induction txs generalizing s with
  | nil => exact hv
  | cons tx txs ih => exact ih (after_valid sha256 tx hv)

/-- Once paid out, a contract is left alone. -/
theorem run_closed (txs : List (Tx P)) (hv : Valid P s) (hget : s.htlcs.get k = some h)
    (he : P.create (.escrow h.hashlock) h.escrowBump = some e) (hclosed : h.isOpen = false) :
    payouts sha256 k txs s = [] ∧ takenFrom sha256 e txs s = 0 ∧
      (run sha256 txs s).htlcs.get k = some h := by
  induction txs generalizing s with
  | nil => exact ⟨rfl, rfl, hget⟩
  | cons tx txs ih =>
    have hout := after_outcome sha256 tx hv hget he
    generalize hpaid : tx.paid sha256 k s = paid at hout
    cases hout with
    | kept hget' hle =>
      obtain ⟨hp, ht, hr⟩ := ih (after_valid sha256 tx hv) hget'
      refine ⟨?_, ?_, hr⟩
      · unfold payouts
        rw [hpaid, hp]
        rfl
      · unfold takenFrom
        rw [ht]
        omega
    | paid h' p hopen => exact absurd hopen (by rw [hclosed]; exact Bool.false_ne_true)

/-- From any state on, a contract keeps its terms, is paid out at most once and when that is due, and
loses at most its amount. -/
theorem run_outcome (txs : List (Tx P)) (hv : Valid P s) (hget : s.htlcs.get k = some h)
    (he : P.create (.escrow h.hashlock) h.escrowBump = some e) :
    (∃ h', (run sha256 txs s).htlcs.get k = some h' ∧ h'.terms = h.terms) ∧
      (payouts sha256 k txs s).length ≤ 1 ∧ takenFrom sha256 e txs s ≤ h.amount ∧
      ∀ p ∈ payouts sha256 k txs s, p.Due sha256 h := by
  induction txs generalizing s with
  | nil => exact ⟨⟨h, hget, rfl⟩, Nat.zero_le _, Nat.zero_le _, nofun⟩
  | cons tx txs ih =>
    have hout := after_outcome sha256 tx hv hget he
    have hv' := after_valid sha256 tx hv
    generalize hpaid : tx.paid sha256 k s = paid at hout
    cases hout with
    | kept hget' hle =>
      obtain ⟨hterms, hlen, htaken, hdue⟩ := ih hv' hget'
      unfold payouts takenFrom
      rw [hpaid]
      refine ⟨hterms, hlen, ?_, hdue⟩
      omega
    | paid h' p hopen hclosed hterms hget' hle hdue =>
      obtain ⟨hp, ht, hr⟩ := run_closed sha256 txs hv' hget'
        ((terms_escrow hterms).trans he) hclosed
      unfold payouts takenFrom
      rw [hpaid, hp, ht]
      refine ⟨⟨h', hr, hterms⟩, Nat.le_refl _, ?_, ?_⟩
      · omega
      · intro q hq
        obtain rfl := List.mem_singleton.1 hq
        exact hdue

end Run

theorem genesis_valid (tokens : Tokens κ) (mints : List κ) (now : Int) :
    Valid P (genesis tokens mints now) :=
  ⟨fun _ _ h => (nomatch h), fun _ _ _ _ _ h => (nomatch h)⟩

/-- The whole life of a contract: `txs` is what came before some moment at which it was there, `txs'`
what comes after.  A refund pays the receiver only where the receiver is the sender. -/
theorem escrow_safe (sha256 : Bytes32 → Bytes32) (tokens : Tokens κ) (mints : List κ) (now : Int)
    (txs txs' : List (Tx P)) {k : κ} {h : Htlc κ}
    (hget : (run sha256 txs (genesis tokens mints now)).htlcs.get k = some h) :
    let s := run sha256 txs (genesis tokens mints now)
    let s' := run sha256 txs' s
    ∃ e h' t, P.create (.escrow h.hashlock) h.escrowBump = some e ∧
      s'.htlcs.get k = some h' ∧ h'.terms = h.terms ∧ s'.tokens.get e = some t ∧
      (h'.claimed = false ∧ h'.refunded = false → h.amount ≤ t.amount) ∧
      (payouts sha256 k txs' s).length ≤ 1 ∧ takenFrom sha256 e txs' s ≤ h.amount ∧
      ∀ p ∈ payouts sha256 k txs' s,
        (p.owner = h.receiver → (∃ x, p.secret = some x ∧ sha256 x = h.hashlock) ∨
          (p.secret = none ∧ h.receiver = h.sender)) ∧
        (p.secret = none → p.owner = h.sender ∧ p.signs h.sender = true ∧ h.timelock ≤ p.time) := by
  intro s s'
  have hv : Valid P s := run_valid sha256 txs (genesis_valid tokens mints now)
  obtain ⟨e, -, he, -⟩ := hv.covered k h hget
  obtain ⟨⟨h', hget', hterms⟩, hlen, htaken, hdue⟩ := run_outcome sha256 txs' hv hget he
  obtain ⟨e', t, he', ht, -, hcov⟩ := (run_valid sha256 txs' hv).covered k h' hget'
  obtain rfl : e' = e := Option.some.inj (he'.symm.trans ((terms_escrow hterms).trans he))
  have hamount : h'.amount = h.amount := congrArg (·.2.2.2.2.2.1) hterms
  refine ⟨e', h', t, he, hget', hterms, ht, ?_, hlen, htaken, fun p hp => ⟨fun ho => ?_, fun hs => ?_⟩⟩
  · rintro ⟨hc, hr⟩
    rw [← hamount]
    exact hcov (by simp [Htlc.isOpen, hc, hr])
  · obtain ⟨x, hx, hsha, -⟩ | ⟨hs, hsender, -⟩ := hdue p hp
    · exact .inl ⟨x, hx, hsha⟩
    · exact .inr ⟨hs, ho.symm.trans hsender⟩
  · obtain ⟨x, hx, -⟩ | ⟨-, hrest⟩ := hdue p hp
    · rw [hx] at hs
      cases hs
    · exact hrest

/-! ## A contract -/

/-- Keys that show how they were derived. -/
inductive Key where
  | wallet (n : Nat)
  | htlc (hashlock : Bytes32) (bump : Nat)
  | escrow (hashlock : Bytes32) (bump : Nat)
  deriving DecidableEq

def keys : Program Key Seeds where
  create seeds bump :=
    if bump < 256 then
      match seeds with
      | .htlc hashlock => some (.htlc hashlock bump)
      | .escrow hashlock => some (.escrow hashlock bump)
    else none

theorem wallet_not_derived (n : Nat) : ¬ keys.Derived (.wallet n) := by
  rintro ⟨s, b, h⟩
  simp only [keys] at h
  split_ifs at h
  cases s <;> cases h

/-- The wallet signs, alone. -/
def signedBy (n elapsed : Nat) (instruction : Instruction keys) : Tx keys where
  signs k := k = .wallet n
  wallets k hk := by
    obtain rfl : k = .wallet n := by simpa using hk
    exact wallet_not_derived n
  elapsed
  instruction

/-- Mint 9; wallet 3 has 500 in account 30, wallet 4 nothing in account 40. -/
def accounts : Tokens Key :=
  (Accounts.empty.set (.wallet 30) ⟨.wallet 9, .wallet 3, 500, none, 0, false⟩).set (.wallet 40)
    ⟨.wallet 9, .wallet 4, 0, none, 0, false⟩

/-- Wallet 3 locks 50 for a receiver until time 100, under the hash 7. -/
def lockFor (receiver : Nat) : Tx keys :=
  signedBy 3 0 (.lockFunds ⟨.htlc 7 255, .escrow 7 255, .wallet 3, .wallet receiver, .wallet 9,
    .wallet 30⟩ 7 100 50)

def claimFor (secret : Bytes32) : Tx keys :=
  signedBy 5 10 (.claim ⟨.htlc 7 255, .escrow 7 255, .wallet 40⟩ secret)

def refundLate : Tx keys :=
  signedBy 3 100 (.refund ⟨.htlc 7 255, .wallet 3, .escrow 7 255, .wallet 30⟩)

theorem escrow_safe_claim :
    let s := run (· + 1) [lockFor 4] (genesis accounts [.wallet 9] 0)
    (payouts (· + 1) (.htlc 7 255) [claimFor 6, refundLate] s).map (fun p => (p.owner, p.secret)) =
      [(.wallet 4, some 6)] ∧
    ∃ e, takenFrom (· + 1) e [claimFor 6, refundLate] s ≤ 50 := by
  intro s
  have hget : s.htlcs.get (.htlc 7 255) =
      some ⟨.wallet 3, .wallet 4, .wallet 9, 7, 100, 50, false, false, 255, 255⟩ := by
    decide +kernel
  obtain ⟨e, -, -, -, -, -, -, -, -, htaken, -⟩ := escrow_safe (· + 1) accounts [.wallet 9] 0
    [lockFor 4] [claimFor 6, refundLate] hget
  exact ⟨by decide +kernel, e, htaken⟩

/-- A sender who names himself as the receiver is paid without any secret, by the refund. -/
theorem refund_to_receiver :
    let s := run (· + 1) [lockFor 3] (genesis accounts [.wallet 9] 0)
    ∃ h, s.htlcs.get (.htlc 7 255) = some h ∧
      ¬ ∀ p ∈ payouts (· + 1) (.htlc 7 255) [refundLate] s, p.owner = h.receiver →
        ∃ x, p.secret = some x ∧ x + 1 = h.hashlock := by
  intro s
  refine ⟨⟨.wallet 3, .wallet 3, .wallet 9, 7, 100, 50, false, false, 255, 255⟩, by decide +kernel, ?_⟩
  have hpaid : (Key.wallet 3, none) ∈
      (payouts (· + 1) (.htlc 7 255) [refundLate] s).map fun p => (p.owner, p.secret) := by
    decide +kernel
  obtain ⟨p, hp, he⟩ := List.mem_map.1 hpaid
  obtain ⟨howner, hsecret⟩ := Prod.mk.inj he
  intro hall
  obtain ⟨x, hx, -⟩ := hall p hp howner
  rw [hsecret] at hx
  cases hx

end IntentX.AnchorHtlc
