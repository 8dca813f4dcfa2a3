import Mathlib.Data.List.AList
import Mathlib.Algebra.BigOperators.Group.List.Basic
import Mathlib.Algebra.Order.BigOperators.Group.List
import Mathlib.Tactic.Ring
import IntentX.Lib.Guard

/-!
# Accounts, program addresses and tokens

The parts of the Solana runtime a program rests on, over an arbitrary type `κ` of public keys.

* `Accounts κ α`: the accounts of one kind by address, finitely many, so that a quantity can be
  summed over them; `sum_set` says what a write does to such a sum.
* `Program κ σ`: the addresses a program derives from its seeds `σ`.  Nobody holds the key of a
  derived address, and only the program can sign for it.
* `Token.transfer`: the transfer instruction of the token program, which moves exactly the amount or
  fails.  A transfer from an account to itself succeeds and moves nothing.
* `Anchor`: the account constraints a program can put on the context of an instruction.
-/

namespace Lib

/-! ## Accounts -/

def Accounts (κ α : Type) := AList fun _ : κ => α

namespace Accounts

variable {κ α : Type} [DecidableEq κ]

def empty : Accounts κ α := (∅ : AList fun _ : κ => α)

def get (s : Accounts κ α) (k : κ) : Option α := AList.lookup k s

def set (s : Accounts κ α) (k : κ) (a : α) : Accounts κ α := AList.insert k a s

def erase (s : Accounts κ α) (k : κ) : Accounts κ α := AList.erase k s

def sum (s : Accounts κ α) (w : κ → α → Nat) : Nat := (s.entries.map fun e => w e.1 e.2).sum

variable (s : Accounts κ α) {k k' : κ} {a : α}

@[simp] theorem get_empty : (empty : Accounts κ α).get k = none := AList.lookup_empty k

@[simp] theorem get_set_self : (s.set k a).get k = some a := AList.lookup_insert s

theorem get_set_ne (h : k' ≠ k) : (s.set k a).get k' = s.get k' := AList.lookup_insert_ne h

theorem get_erase_ne (h : k' ≠ k) : (s.erase k).get k' = s.get k' := AList.lookup_erase_ne h

theorem get_set : (s.set k a).get k' = if k' = k then some a else s.get k' := by
  split
  · next h => rw [h, get_set_self]
  · next h => exact s.get_set_ne h

/-- What the account at `k` adds to a sum. -/
def share (s : Accounts κ α) (w : κ → α → Nat) (k : κ) : Nat := (s.get k).elim 0 (w k)

theorem sum_kerase {l : List (Sigma fun _ : κ => α)} (w : κ → α → Nat) (k : κ) :
    ((l.kerase k).map fun e => w e.1 e.2).sum + (l.dlookup k).elim 0 (w k) =
      (l.map fun e => w e.1 e.2).sum := by
  by_cases hk : k ∈ l.keys
  · obtain ⟨b, l₁, l₂, hl₁, rfl, he⟩ := List.exists_of_kerase hk
    have hlook : (l₁ ++ ⟨k, b⟩ :: l₂).dlookup k = some b := by
      rw [List.dlookup_append, List.dlookup_eq_none.2 hl₁, List.dlookup_cons_eq]
      rfl
    rw [he, hlook]
    simp only [List.map_append, List.sum_append, List.map_cons, List.sum_cons, Option.elim_some]
    omega
  · rw [List.kerase_of_notMem_keys hk, List.dlookup_eq_none.2 hk]
    rfl

theorem sum_set (w : κ → α → Nat) :
    (s.set k a).sum w + s.share w k = s.sum w + w k a := by
  have h := sum_kerase w k (l := s.entries)
  have hset : (s.set k a).sum w = w k a + ((s.entries.kerase k).map fun e => w e.1 e.2).sum := rfl
  have hshare : s.share w k = (s.entries.dlookup k).elim 0 (w k) := rfl
  have hsum : s.sum w = (s.entries.map fun e => w e.1 e.2).sum := rfl
  omega

theorem share_of_get {w : κ → α → Nat} (h : s.get k = some a) : s.share w k = w k a := by
  unfold share
  rw [h]
  rfl

theorem share_of_none {w : κ → α → Nat} (h : s.get k = none) : s.share w k = 0 := by
  unfold share
  rw [h]
  rfl

theorem sum_erase (w : κ → α → Nat) (k : κ) : (s.erase k).sum w + s.share w k = s.sum w :=
  sum_kerase w k

theorem share_le_sum (w : κ → α → Nat) (k : κ) : s.share w k ≤ s.sum w := by
  have := s.sum_erase w k
  omega

/-- A sum that no account lowers. -/
theorem sum_le_sum (s s' : Accounts κ α) (w : κ → α → Nat)
    (h : ∀ k a, s.get k = some a → w k a ≤ s'.share w k) : s.sum w ≤ s'.sum w := by
  induction s using AList.insertRec generalizing s' with
  | H0 => exact Nat.zero_le _
  | IH k a l hk ih =>
    -- the account at `k` against the one `s'` has there, the others by induction
    have hrest : Accounts.sum l w ≤ (s'.erase k).sum w := by
      refine ih _ fun k' a' hget => ?_
      have hne : k' ≠ k := by
        rintro rfl
        exact hk (AList.lookup_isSome.1 (Option.isSome_of_eq_some hget))
      have hle := h k' a' ((AList.lookup_insert_ne hne).trans hget)
      unfold share at hle ⊢
      rwa [s'.get_erase_ne hne]
    have hset := Accounts.sum_set l (k := k) (a := a) w
    have hnone : Accounts.share l w k = 0 := Accounts.share_of_none l (AList.lookup_eq_none.2 hk)
    have hown := h k a (AList.lookup_insert l)
    have herase := s'.sum_erase w k
    have hsum : Accounts.sum (AList.insert k a l) w = (Accounts.set l k a).sum w := rfl
    omega

end Accounts

/-! ## Program addresses -/

/-- `create` is `create_program_address` for the seeds of one program and a bump, below 256.  It fails
where the hash is a point on the curve, since somebody could hold that key. -/
structure Program (κ σ : Type) where
  create : σ → Nat → Option κ

namespace Program

variable {κ σ : Type} (P : Program κ σ)

def findFrom (seeds : σ) : Nat → Option (κ × Nat)
  | 0 => none
  | b + 1 =>
    match P.create seeds (b + 1) with
    | some k => some (k, b + 1)
    | none => findFrom seeds b

/-- `find_program_address`: the first bump that gives an address, from 255 down to 1. -/
def find (seeds : σ) : Option (κ × Nat) := P.findFrom seeds 255

/-- The addresses for which only the program can sign. -/
def Derived (k : κ) : Prop := ∃ seeds b, P.create seeds b = some k

/-- No two derivations give one address. -/
def CollisionFree : Prop :=
  ∀ {s b s' b' k}, P.create s b = some k → P.create s' b' = some k → s = s' ∧ b = b'

variable {P}

theorem findFrom_spec {seeds : σ} {n : Nat} {k : κ} {b : Nat}
    (h : P.findFrom seeds n = some (k, b)) : P.create seeds b = some k ∧ 0 < b := by
  induction n with
  | zero => cases h
  | succ n ih =>
    unfold findFrom at h
    split at h
    · next hc => cases h; exact ⟨hc, Nat.succ_pos n⟩
    · exact ih h

theorem find_spec {seeds : σ} {k : κ} {b : Nat} (h : P.find seeds = some (k, b)) :
    P.create seeds b = some k ∧ 0 < b :=
  findFrom_spec h

theorem find_derived {seeds : σ} {k : κ} {b : Nat} (h : P.find seeds = some (k, b)) : P.Derived k :=
  ⟨seeds, b, (find_spec h).1⟩

end Program

/-! ## The token program -/

structure TokenAccount (κ : Type) where
  mint : κ
  owner : κ
  amount : Nat
  delegate : Option κ
  delegatedAmount : Nat
  frozen : Bool
  deriving DecidableEq

inductive TokenError where
  | uninitialized
  | accountFrozen
  | insufficientFunds
  | mintMismatch
  | ownerMismatch
  | missingSignature
  | overflow
  deriving DecidableEq

abbrev Tokens (κ : Type) := Accounts κ (TokenAccount κ)

namespace Token

variable {κ : Type} [DecidableEq κ]

/-- The authority is the delegate, within what it was given, or the owner. -/
def authorize (authority : κ) (amount : Nat) (a : TokenAccount κ) :
    Except TokenError (TokenAccount κ) :=
  if a.delegate = some authority then do
    let left ← minus a.delegatedAmount amount .insufficientFunds
    return { a with delegatedAmount := left, delegate := if left = 0 then none else a.delegate }
  else do
    require (a.owner = authority) .ownerMismatch
    return a

def transfer (src dst authority : κ) (signed : Bool) (amount : Nat) (s : Tokens κ) :
    Except TokenError (Tokens κ) := do
  let a ← orFail (s.get src) .uninitialized
  let b ← orFail (s.get dst) .uninitialized
  require (a.frozen = false ∧ b.frozen = false) .accountFrozen
  let left ← minus a.amount amount .insufficientFunds
  require (a.mint = b.mint) .mintMismatch
  let a' ← authorize authority amount a
  require (signed = true) .missingSignature
  if src = dst then return s
  else
    let sum ← within (2 ^ 64) (b.amount + amount) .overflow
    return (s.set src { a' with amount := left }).set dst { b with amount := sum }

/-- What `owner` has of `mint` in an account. -/
def holds (owner mint : κ) (_ : κ) (a : TokenAccount κ) : Nat :=
  if a.owner = owner ∧ a.mint = mint then a.amount else 0

/-- What `owner` has of `mint` in all accounts. -/
def held (s : Tokens κ) (owner mint : κ) : Nat := s.sum (holds owner mint)

/-- What other programs and other transactions do to the accounts: they take no tokens from an
account whose owner is `mine`, and do not give it to somebody else. -/
def Respects (mine : κ → Prop) (s s' : Tokens κ) : Prop :=
  ∀ k a, s.get k = some a → mine a.owner →
    ∃ a', s'.get k = some a' ∧ a'.mint = a.mint ∧ a'.owner = a.owner ∧ a.amount ≤ a'.amount

variable {src dst authority owner mint k : κ} {signed : Bool} {amount : Nat} {s s' : Tokens κ}
  {a a' : TokenAccount κ}

theorem authorize_ok (h : authorize authority amount a = .ok a') :
    (a.owner = authority ∨ a.delegate = some authority) ∧ a'.mint = a.mint ∧ a'.owner = a.owner := by
  unfold authorize at h
  split at h
  · next hd =>
    obtain ⟨-, h⟩ := Guard.minus_bind.1 h
    obtain rfl := Guard.pure_ok.1 h
    exact ⟨.inr hd, rfl, rfl⟩
  · obtain ⟨ho, h⟩ := Guard.require_bind.1 h
    obtain rfl := Guard.pure_ok.1 h
    exact ⟨.inl ho, rfl, rfl⟩

/-- A transfer that went through. -/
structure Transferred (src dst authority : κ) (amount : Nat) (s s' : Tokens κ)
    (a b : TokenAccount κ) : Prop where
  source : s.get src = some a
  target : s.get dst = some b
  enough : amount ≤ a.amount
  mint : a.mint = b.mint
  authority : a.owner = authority ∨ a.delegate = some authority
  moved : (src = dst ∧ s' = s) ∨ (src ≠ dst ∧ ∃ a', a'.mint = a.mint ∧ a'.owner = a.owner ∧
    a'.amount = a.amount - amount ∧
    s' = (s.set src a').set dst { b with amount := b.amount + amount })

theorem transfer_ok (h : transfer src dst authority signed amount s = .ok s') :
    ∃ a b, Transferred src dst authority amount s s' a b := by
  unfold transfer at h
  obtain ⟨a, ha, h⟩ := Guard.orFail_bind.1 h
  obtain ⟨b, hb, h⟩ := Guard.orFail_bind.1 h
  obtain ⟨-, h⟩ := Guard.require_bind.1 h
  obtain ⟨hle, h⟩ := Guard.minus_bind.1 h
  obtain ⟨hmint, h⟩ := Guard.require_bind.1 h
  obtain ⟨a', hauth, h⟩ := Guard.bind_ok.1 h
  obtain ⟨hown, hm, ho⟩ := authorize_ok hauth
  obtain ⟨-, h⟩ := Guard.require_bind.1 h
  refine ⟨a, b, ha, hb, hle, hmint, hown, ?_⟩
  split at h
  · next he => exact .inl ⟨he, (Guard.pure_ok.1 h).symm⟩
  · next hne =>
    obtain ⟨-, h⟩ := Guard.within_bind.1 h
    exact .inr ⟨hne, { a' with amount := a.amount - amount }, hm, ho, rfl, (Guard.pure_ok.1 h).symm⟩

namespace Transferred

variable {b : TokenAccount κ}

/-- Between two accounts: what `owner` has goes down by what it gave and up by what it got. -/
theorem held (h : Transferred src dst authority amount s s' a b) (hne : src ≠ dst) (owner mint : κ) :
    Token.held s' owner mint + (if a.owner = owner ∧ a.mint = mint then amount else 0) =
      Token.held s owner mint + (if b.owner = owner ∧ b.mint = mint then amount else 0) := by
  obtain ⟨he, -⟩ | ⟨-, a', hm, ho, hamt, rfl⟩ := h.moved
  · exact absurd he hne
  have h₁ := Accounts.sum_set s (k := src) (a := a') (holds owner mint)
  have h₂ := Accounts.sum_set (s.set src a') (k := dst) (a := { b with amount := b.amount + amount })
    (holds owner mint)
  rw [Accounts.share_of_get s h.source] at h₁
  rw [Accounts.share_of_get (a := b) _ (by rw [Accounts.get_set_ne _ (Ne.symm hne)]; exact h.target)]
    at h₂
  have hle := h.enough
  unfold Token.held
  simp only [holds, hm, ho, hamt] at h₁ h₂ ⊢
  split_ifs at h₁ h₂ ⊢ <;> omega

/-- What happens to one account. -/
theorem get (h : Transferred src dst authority amount s s' a b) (hk : s.get k = some a') :
    ∃ a'', s'.get k = some a'' ∧ a''.mint = a'.mint ∧ a''.owner = a'.owner ∧
      (k ≠ src → a'.amount ≤ a''.amount) := by
  obtain ⟨-, rfl⟩ | ⟨hne, x, hm, ho, hamt, rfl⟩ := h.moved
  · exact ⟨a', hk, rfl, rfl, fun _ => Nat.le_refl _⟩
  by_cases hd : k = dst
  · subst hd
    have hb : b = a' := Option.some.inj (h.target.symm.trans hk)
    subst hb
    exact ⟨_, Accounts.get_set_self _, rfl, rfl, fun _ => Nat.le_add_right _ _⟩
  · by_cases hs : k = src
    · subst hs
      have ha : a = a' := Option.some.inj (h.source.symm.trans hk)
      subst ha
      refine ⟨x, ?_, hm, ho, fun hn => absurd rfl hn⟩
      rw [Accounts.get_set_ne _ hd, Accounts.get_set_self]
    · refine ⟨a', ?_, rfl, rfl, fun _ => Nat.le_refl _⟩
      rw [Accounts.get_set_ne _ hd, Accounts.get_set_ne _ hs, hk]

end Transferred

/-- What nobody else may touch does not shrink. -/
theorem Respects.held {mine : κ → Prop} (h : Respects mine s s') (ho : mine owner) (mint : κ) :
    Token.held s owner mint ≤ Token.held s' owner mint := by
  refine Accounts.sum_le_sum s s' _ fun k a hk => ?_
  unfold holds
  split
  · next hm =>
    obtain ⟨a', hget, hm', ho', hle⟩ := h k a hk (hm.1 ▸ ho)
    rw [Accounts.share_of_get s' hget]
    simp only [ho', hm', hm.1, hm.2, and_self, if_true]
    exact hle
  · exact Nat.zero_le _

end Token

/-! ## Anchor -/

/-- How an instruction of an Anchor program fails: with an error code of its own, on a constraint of
its context, by an `unwrap` of nothing, or in the token program. -/
inductive AnchorError (ε : Type) where
  | custom (e : ε)
  | accountNotInitialized
  | accountInUse
  | accountNotSigner
  | constraintSeeds
  | constraintHasOne
  | constraintRaw
  | panicked
  | token (e : TokenError)
  deriving DecidableEq

namespace Anchor

variable {κ σ ε α β : Type} [DecidableEq κ] (P : Program κ σ)

/-- `seeds = [..], bump = account.bump`: the address is the one derived with the stored bump. -/
def seedsWith (seeds : σ) (bump : Nat) (k : κ) : Except (AnchorError ε) Unit :=
  require (P.create seeds bump = some k) .constraintSeeds

/-- `seeds = [..], bump`: the address is the canonical one; its bump is returned. -/
def seedsFound (seeds : σ) (k : κ) : Except (AnchorError ε) Nat := do
  let (key, bump) ← orFail (P.find seeds) .constraintSeeds
  require (k = key) .constraintSeeds
  return bump

/-- An account that has to be there. -/
def load (accounts : Accounts κ α) (k : κ) : Except (AnchorError ε) α :=
  orFail (accounts.get k) .accountNotInitialized

/-- A call of the token program. -/
def invoke (r : Except TokenError α) : Except (AnchorError ε) α := r.mapError .token

variable {P}

theorem seedsWith_bind {seeds : σ} {bump : Nat} {k : κ} {f : Unit → Except (AnchorError ε) β} {r : β} :
    (seedsWith P seeds bump k >>= f) = .ok r ↔ P.create seeds bump = some k ∧ f () = .ok r :=
  Guard.require_bind

theorem seedsFound_bind {seeds : σ} {k : κ} {f : Nat → Except (AnchorError ε) β} {r : β} :
    (seedsFound P seeds k >>= f) = .ok r ↔ ∃ bump, P.find seeds = some (k, bump) ∧ f bump = .ok r := by
  unfold seedsFound
  rcases P.find seeds with _ | ⟨key, bump⟩
  · exact ⟨nofun, fun ⟨_, h, _⟩ => nomatch h⟩
  · simp only [orFail, Guard.bind_ok, Guard.require_ok, Guard.pure_ok]
    grind

theorem load_bind {accounts : Accounts κ α} {k : κ} {f : α → Except (AnchorError ε) β} {r : β} :
    (load accounts k >>= f) = .ok r ↔ ∃ a, accounts.get k = some a ∧ f a = .ok r :=
  Guard.orFail_bind

omit [DecidableEq κ] in
theorem invoke_bind {x : Except TokenError α} {f : α → Except (AnchorError ε) β} {r : β} :
    (invoke x >>= f) = .ok r ↔ ∃ a, x = .ok a ∧ f a = .ok r := by
  cases x with
  | error e => exact ⟨nofun, fun ⟨_, h, _⟩ => nomatch h⟩
  | ok a => exact ⟨fun h => ⟨a, rfl, h⟩, fun ⟨_, h, hf⟩ => by cases h; exact hf⟩

end Anchor

end Lib
