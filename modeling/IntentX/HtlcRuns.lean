import IntentX.Htlc
import IntentX.Lib.Rely

/-!
# Runs of the HTLC service and its worker

The requests of the service and the rounds of the worker run side by side on one table of swaps.
`execHtlc_swap` says what one act can do to a swap: nothing, create it, or write it in one of the
ways of `Writes`, each from one status.  From that come the invariant of the table (`HtlcInv`) and
what persists while a task is not looking (`Persists`): a swap stays, with its hash and its
timelock, and with its secret once it has one.

`htlcProtocol` puts these together, and `HtlcReq.obeys` shows that every request follows it.  With
`bind` the protocol also ties stored secrets to their hashes, and has swaps failed only by those
that may.
-/

namespace IntentX

open Lib

/-! ## What an act does to a swap -/

/-- What a statement makes of the row of a swap that it hits. -/
inductive Writes (clock : Int) : HtlcStmt → HtlcSwap → HtlcSwap → Prop
  | secret {s} (b) (h : s.status = .Created) :
      Writes clock (.setSecret s.id b) s { s with secret := some b }
  | sourceLocked {s} (tx) (h : s.status = .Created) :
      Writes clock (.setSourceLocked s.id tx) s
        { s with status := .SourceLocked, sourceLockTx := some tx, lockedAt := some clock }
  | destLock {s} (tx) (h : s.status = .SourceLocked) :
      Writes clock (.setDestLock s.id tx) s { s with destLockTx := some tx }
  | destClaimed {s} (b tx) (h : s.status = .SourceLocked) :
      Writes clock (.setDestClaimed s.id b tx) s
        { s with status := .DestClaimed, secret := some b, destClaimTx := some tx,
                 claimedAt := some clock }
  | destClaimedOnly {s} (tx) (h : s.status = .SourceLocked) :
      Writes clock (.setDestClaimedOnly s.id tx) s
        { s with status := .DestClaimed, destClaimTx := some tx, claimedAt := some clock }
  | sourceUnlocked {s} (tx) (h : s.status = .DestClaimed) :
      Writes clock (.setSourceUnlocked s.id tx) s
        { s with status := .SourceUnlocked, sourceUnlockTx := some tx, completedAt := some clock }
  | refunded {s} (h : s.status = .Created ∨ s.status = .SourceLocked) :
      Writes clock (.setRefunded s.id) s
        { s with status := .Refunded, completedAt := some clock }
  | failed {s} (e) (h : s.status ≠ .SourceUnlocked ∧ s.status ≠ .Refunded) :
      Writes clock (.setFailed s.id e) s
        { s with status := .Failed, error := some e, completedAt := some clock }

section Acts

variable {db db' : HtlcDb} {id : Uuid}

theorem HtlcDb.swap_some_iff {s : HtlcSwap} : db.swap id = some s ↔ s ∈ db.swaps.rows ∧ s.id = id :=
  Table.find_pk_iff

/-- The swap is untouched, or inserted, or written by the statement. -/
def Touched (o : HtlcStmt) (id : Uuid) (db db' : HtlcDb) : Prop :=
  db'.swap id = db.swap id ∨
  (∃ s, o = .insertSwap s ∧ s.id = id ∧ db.swap id = none ∧ db'.swap id = some s) ∨
  ∃ s s', db.swap id = some s ∧ db'.swap id = some s' ∧ Writes db.clock o s s'

theorem touched_update {o : HtlcStmt} {id' : Uuid} {p : HtlcStatus → Bool} {f : HtlcSwap → HtlcSwap}
    {hf} (hw : ∀ s, s.id = id' → p s.status = true → Writes db.clock o s (f s)) :
    Touched o id db (db.update id' p f hf).2 := by
  have hfind : (db.update id' p f hf).2.swap id = (db.swap id).map fun s =>
      if decide (s.id = id') && p s.status then f s else s := Table.find_update_pk _ _ hf id
  rcases hs : db.swap id with _ | s
  · rw [hs] at hfind
    exact .inl (hfind.trans hs.symm)
  · rw [hs, Option.map_some] at hfind
    by_cases hp : (decide (s.id = id') && p s.status) = true
    · rw [if_pos hp] at hfind
      simp only [Bool.and_eq_true, decide_eq_true_eq] at hp
      exact .inr (.inr ⟨s, f s, hs, hfind, hw s hp.1 hp.2⟩)
    · rw [if_neg hp] at hfind
      exact .inl (hfind.trans hs.symm)

theorem execHtlcStmt_swap (o : HtlcStmt) (db : HtlcDb) (id : Uuid) :
    Touched o id db (execHtlcStmt o db).2 := by
  cases o with
  | insertSwap s =>
    simp only [execHtlcStmt]
    split
    · split
      · next t ht =>
        have hfind : HtlcDb.swap { db with swaps := t } id = if id = s.id then some s else db.swap id :=
          Table.find_insert_pk ht id
        by_cases hid : id = s.id
        · subst hid
          have hfree := Table.insert_isSome_iff.1 (Option.isSome_of_eq_some ht)
          rw [if_pos rfl] at hfind
          exact .inr (.inl ⟨s, rfl, rfl, Table.find_pk_none.2 fun r hr => (hfree r hr).1, hfind⟩)
        · rw [if_neg hid] at hfind
          exact .inl hfind
      · exact .inl rfl
    · exact .inl rfl
  | setSecret id' b =>
    exact touched_update fun s hid hp => hid ▸ .secret b (eq_of_beq hp)
  | setSourceLocked id' tx =>
    exact touched_update fun s hid hp => hid ▸ .sourceLocked tx (eq_of_beq hp)
  | setDestLock id' tx =>
    exact touched_update fun s hid hp => hid ▸ .destLock tx (eq_of_beq hp)
  | setDestClaimed id' b tx =>
    exact touched_update fun s hid hp => hid ▸ .destClaimed b tx (eq_of_beq hp)
  | setDestClaimedOnly id' tx =>
    exact touched_update fun s hid hp => hid ▸ .destClaimedOnly tx (eq_of_beq hp)
  | setSourceUnlocked id' tx =>
    exact touched_update fun s hid hp => hid ▸ .sourceUnlocked tx (eq_of_beq hp)
  | setRefunded id' =>
    exact touched_update fun s hid hp => hid ▸ .refunded (by simpa using hp)
  | setFailed id' e =>
    exact touched_update fun s hid hp => hid ▸ .failed e (by simpa using hp)
  | _ => exact .inl rfl

theorem Touched.congr {o : HtlcStmt} {db'' : HtlcDb} (h : Touched o id db db')
    (hs : db''.swap id = db'.swap id) : Touched o id db db'' := by
  unfold Touched
  rw [hs]
  exact h

theorem bridge_swap {α : Type} (db : HtlcDb) (r : Except BridgeError α) (f : α → List Effect)
    (id : Uuid) : (db.bridge r f).2.swap id = db.swap id := by
  unfold HtlcDb.bridge
  split <;> rfl

/-- What an act does to a swap. -/
theorem execHtlc_swap (n : Turn) (o : HtlcAct) (db : HtlcDb) (id : Uuid) :
    (execHtlc n o db).2.swap id = db.swap id ∨
      ∃ st, o = .sql st ∧ Touched st id db (execHtlc n o db).2 := by
  cases o with
  | sql st =>
    have hserve : ∀ fate : Fate, (fate.serve (execHtlcStmt st db) db).2.swap id = db.swap id ∨
        (fate.serve (execHtlcStmt st db) db).2.swap id = (execHtlcStmt st db).2.swap id := by
      intro fate
      cases fate with
      | served => exact .inr rfl
      | refused => exact .inl rfl
      | lost => exact .inr rfl
    rcases hserve n.fate with hkeep | hdone
    · exact .inl hkeep
    · exact .inr ⟨st, rfl, (execHtlcStmt_swap st db id).congr hdone⟩
  | now => exact .inl rfl
  | lockFunds id' params => exact .inl (bridge_swap db _ _ id)
  | verifyLock id' tx => exact .inl (bridge_swap db _ _ id)
  | releaseFunds side id' params msg => exact .inl (bridge_swap db _ _ id)

end Acts

/-! ## Invariant, rely and guarantee -/

/-- The bytes are a secret with the given hash. -/
def Opens (sha256 : Secret → SecretHash) (bytes hash : Bytes) : Prop :=
  ∃ secret : Secret, secret.1 = bytes ∧ (sha256 secret).1 = hash

/-- The stored secret is one for the hash, and it is there once the claim is made. -/
structure Bound (sha256 : Secret → SecretHash) (s : HtlcSwap) : Prop where
  opens : ∀ b, s.secret = some b → Opens sha256 b s.secretHash
  revealed : s.status = .DestClaimed ∨ s.status = .SourceUnlocked → s.secret.isSome = true

/-- Time goes on; a swap keeps its hash and its timelock, and a secret once it has one. -/
structure Persists (db db' : HtlcDb) : Prop where
  clock : db.clock ≤ db'.clock
  swap : ∀ id s, db.swap id = some s → ∃ s', db'.swap id = some s' ∧ s'.secretHash = s.secretHash ∧
    s'.sourceTimelock = s.sourceTimelock ∧ (s.secret.isSome = true → s'.secret.isSome = true)

theorem Persists.refl (db : HtlcDb) : Persists db db :=
  ⟨le_refl _, fun _ s hs => ⟨s, hs, rfl, rfl, id⟩⟩

theorem Persists.trans {db₁ db₂ db₃ : HtlcDb} (h : Persists db₁ db₂) (h' : Persists db₂ db₃) :
    Persists db₁ db₃ := by
  refine ⟨h.clock.trans h'.clock, fun id s hs => ?_⟩
  obtain ⟨s₂, hs₂, hh, ht, hsec⟩ := h.swap id s hs
  obtain ⟨s₃, hs₃, hh', ht', hsec'⟩ := h'.swap id s₂ hs₂
  exact ⟨s₃, hs₃, hh'.trans hh, ht'.trans ht, fun hx => hsec' (hsec hx)⟩

/-- What makes an act right in the state it meets.  With `bind`, the secrets are watched too, and
only those who `mayFail` give up a swap. -/
def Justified (sha256 : Secret → SecretHash) (bind : Bool) (mayFail : Prop) (db : HtlcDb) :
    HtlcAct → Prop
  | .sql (.insertSwap s) => s.status = .Created ∧ s.secret = none
  | .sql (.setRefunded id) => ∀ s, db.swap id = some s → s.sourceTimelock ≤ db.clock
  | .sql (.setSecret id b) | .sql (.setDestClaimed id b _) =>
    bind = true → ∀ s, db.swap id = some s → Opens sha256 b s.secretHash
  | .sql (.setDestClaimedOnly id _) =>
    bind = true → ∀ s, db.swap id = some s → s.secret.isSome = true
  | .sql (.setFailed _ _) => bind = true → mayFail
  | _ => True

structure HtlcInv (sha256 : Secret → SecretHash) (bind : Bool) (db : HtlcDb) : Prop where
  timed : ∀ id s, db.swap id = some s → s.status = .Refunded → s.sourceTimelock ≤ db.clock
  known : ∀ id s, db.swap id = some s → s.status ≠ .Expired
  bound : bind = true → ∀ id s, db.swap id = some s → Bound sha256 s

section Step

variable {sha256 : Secret → SecretHash} {bind : Bool} {mayFail : Prop} {db : HtlcDb}
  {s s' : HtlcSwap} {st : HtlcStmt} {clock : Int}

theorem Writes.keeps (h : Writes clock st s s') :
    s'.secretHash = s.secretHash ∧ s'.sourceTimelock = s.sourceTimelock ∧
      (s.secret.isSome = true → s'.secret.isSome = true) := by
  cases h <;> exact ⟨rfl, rfl, by simp⟩

theorem execHtlc_persists (n : Turn) (o : HtlcAct) (db : HtlcDb) :
    Persists db (execHtlc n o db).2 := by
  refine ⟨?_, fun id s hs => ?_⟩
  · show db.clock ≤ db.clock + (n.elapse : Int)
    omega
  · rcases execHtlc_swap n o db id with hsame | ⟨st, -, hsame | ⟨_, -, -, hnone, -⟩ |
      ⟨s₀, s', hs₀, hs', hw⟩⟩
    · exact ⟨s, hsame.trans hs, rfl, rfl, fun h => h⟩
    · exact ⟨s, hsame.trans hs, rfl, rfl, fun h => h⟩
    · rw [hs] at hnone
      cases hnone
    · rw [hs] at hs₀
      cases hs₀
      exact ⟨s', hs', hw.keeps⟩

/-- A justified write keeps a swap within its timelock, known and bound. -/
theorem Writes.timed (h : Writes db.clock st s s') (hs : db.swap s.id = some s)
    (hj : Justified sha256 bind mayFail db (.sql st))
    (ht : s.status = .Refunded → s.sourceTimelock ≤ db.clock) (hr : s'.status = .Refunded) :
    s'.sourceTimelock ≤ db.clock := by
  cases h with
  | secret b hst => exact ht hr
  | destLock tx hst => exact ht hr
  | refunded hst => exact hj s hs
  | sourceLocked | destClaimed | destClaimedOnly | sourceUnlocked | failed => cases hr

theorem Writes.known (h : Writes clock st s s') (hk : s.status ≠ .Expired) :
    s'.status ≠ .Expired := by
  cases h with
  | secret => exact hk
  | destLock => exact hk
  | _ => simp

theorem Writes.bound (h : Writes db.clock st s s') (hs : db.swap s.id = some s)
    (hbind : bind = true) (hj : Justified sha256 bind mayFail db (.sql st))
    (hb : Bound sha256 s) : Bound sha256 s' := by
  cases h with
  | secret b hst => exact ⟨fun b' hb' => by cases hb'; exact hj hbind s hs, fun _ => rfl⟩
  | destLock tx hst => exact ⟨hb.opens, hb.revealed⟩
  | destClaimed b tx hst =>
    exact ⟨fun b' hb' => by cases hb'; exact hj hbind s hs, fun _ => rfl⟩
  | destClaimedOnly tx hst => exact ⟨hb.opens, fun _ => hj hbind s hs⟩
  | sourceUnlocked tx hst => exact ⟨hb.opens, fun _ => hb.revealed (.inl hst)⟩
  | sourceLocked tx hst => exact ⟨hb.opens, by simp⟩
  | refunded hst => exact ⟨hb.opens, by simp⟩
  | failed e hst => exact ⟨hb.opens, by simp⟩

theorem HtlcInv.step (n : Turn) {o : HtlcAct} (h : HtlcInv sha256 bind db)
    (hj : Justified sha256 bind mayFail db o) : HtlcInv sha256 bind (execHtlc n o db).2 := by
  have hclock : db.clock ≤ (execHtlc n o db).2.clock := (execHtlc_persists n o db).clock
  -- a swap of the new state is one of the old, a new one, or one that was written
  have hcase : ∀ id s, (execHtlc n o db).2.swap id = some s → db.swap id = some s ∨
      (s.status = .Created ∧ s.secret = none) ∨
      ∃ st s₀, o = .sql st ∧ db.swap s₀.id = some s₀ ∧ Writes db.clock st s₀ s := by
    intro id s hs
    rcases execHtlc_swap n o db id with hsame | ⟨st, rfl, hsame | ⟨s', rfl, -, -, hs'⟩ |
      ⟨s₀, s', hs₀, hs', hw⟩⟩
    · exact .inl (hsame.symm.trans hs)
    · exact .inl (hsame.symm.trans hs)
    · rw [hs] at hs'
      cases hs'
      exact .inr (.inl hj)
    · rw [hs] at hs'
      cases hs'
      have hid := (HtlcDb.swap_some_iff.1 hs₀).2
      exact .inr (.inr ⟨st, s₀, rfl, hid.symm ▸ hs₀, hw⟩)
  constructor
  · intro id s hs hr
    rcases hcase id s hs with hold | ⟨hnew, -⟩ | ⟨st, s₀, rfl, hs₀, hw⟩
    · exact (h.timed id s hold hr).trans hclock
    · rw [hnew] at hr
      cases hr
    · exact (hw.timed hs₀ hj (h.timed _ s₀ hs₀) hr).trans hclock
  · intro id s hs
    rcases hcase id s hs with hold | ⟨hnew, -⟩ | ⟨st, s₀, rfl, hs₀, hw⟩
    · exact h.known id s hold
    · rw [hnew]
      simp
    · exact hw.known (h.known _ s₀ hs₀)
  · intro hbind id s hs
    rcases hcase id s hs with hold | ⟨hnew, hsec⟩ | ⟨st, s₀, rfl, hs₀, hw⟩
    · exact h.bound hbind id s hold
    · refine ⟨fun b hb => ?_, by simp [hnew]⟩
      rw [hsec] at hb
      cases hb
    · exact hw.bound hs₀ hbind hj (h.bound hbind _ s₀ hs₀)

end Step

/-- The protocol of the HTLC tables. -/
theorem Persists.rely_refl {ι : Type} (x : Trace HtlcAct HtlcDb ι) : Persists x.2 x.2 :=
  Persists.refl x.2

theorem Persists.rely_trans {ι : Type} {x y z : Trace HtlcAct HtlcDb ι} :
    Persists x.2 y.2 → Persists y.2 z.2 → Persists x.2 z.2 :=
  Persists.trans

def htlcProtocol {ι : Type} (sha256 : Secret → SecretHash) (bind : Bool) (mayFail : ι → Prop) :
    Protocol execHtlc ι where
  inv x := HtlcInv sha256 bind x.2
  rely x y := Persists x.2 y.2
  may i x o := Justified sha256 bind (mayFail i) x.2 o
  given _ _ _ := True
  refl := Persists.rely_refl
  trans := @Persists.rely_trans ι
  step n hinv hmay _ := ⟨hinv.step n hmay, execHtlc_persists n _ _⟩

/-! ## The requests -/

/-- The operations of the service, the phases of the worker, and the worker itself. -/
inductive HtlcReq where
  | createSwap (id : Uuid) (secret : Secret) (params : CreateHtlcParams)
  | storeSecret (swapId : Uuid) (secret : Secret)
  | recordSourceLock (swapId : Uuid) (lockTx : String)
  | recordDestLock (swapId : Uuid) (destLockTx : String)
  | recordDestClaim (swapId : Uuid) (secret : Secret) (claimTx : String)
  | recordDestClaimWithStoredSecret (swapId : Uuid) (claimTx : String)
  | recordDestClaimUnchecked (swapId : Uuid) (claimTx : String)
  | completeSwap (swapId : Uuid) (unlockTx : String)
  | refundSwap (swapId : Uuid)
  | failSwap (swapId : Uuid) (error : String)
  | phaseLockSource
  | phaseMonitorDestLock
  | phaseClaimDestination
  | phaseUnlockSource
  | phaseRefundExpired
  | worker (rounds : Nat)

/-- The answer of a request is of no use to the pool. -/
def done {α : Type} (p : HtlcProg α) : HtlcProg Unit := p >>= fun _ => .ret ()

def HtlcReq.task (sha256 : Secret → SecretHash) (bridges : BridgeRegistry) : HtlcReq → HtlcProg Unit
  | .createSwap id secret params => done (IntentX.createSwap sha256 id secret params).run
  | .storeSecret id secret => done (IntentX.storeSecret sha256 id secret).run
  | .recordSourceLock id tx => done (IntentX.recordSourceLock id tx).run
  | .recordDestLock id tx => done (IntentX.recordDestLock id tx).run
  | .recordDestClaim id secret tx => done (IntentX.recordDestClaim sha256 id secret tx).run
  | .recordDestClaimWithStoredSecret id tx =>
    done (IntentX.recordDestClaimWithStoredSecret sha256 id tx).run
  | .recordDestClaimUnchecked id tx => done (IntentX.recordDestClaimUnchecked id tx).run
  | .completeSwap id tx => done (IntentX.completeSwap id tx).run
  | .refundSwap id => done (IntentX.refundSwap id).run
  | .failSwap id e => done (IntentX.failSwap id e).run
  | .phaseLockSource => done (IntentX.phaseLockSource bridges)
  | .phaseMonitorDestLock => done (IntentX.phaseMonitorDestLock bridges)
  | .phaseClaimDestination => done (IntentX.phaseClaimDestination sha256 bridges)
  | .phaseUnlockSource => done (IntentX.phaseUnlockSource sha256 bridges)
  | .phaseRefundExpired => done IntentX.phaseRefundExpired
  | .worker n => htlcWorker sha256 bridges n

/-- All but the deprecated operation. -/
def HtlcReq.checked : HtlcReq → Bool
  | .recordDestClaimUnchecked .. => false
  | _ => true

/-- The requests that give up a swap: the caller says so, or a bridge does not work. -/
def HtlcReq.mayFail : HtlcReq → Bool
  | .failSwap .. | .phaseLockSource | .phaseMonitorDestLock | .worker _ => true
  | _ => false

section Follow

variable {ι : Type} {sha256 : Secret → SecretHash} {bind : Bool} {mayFail : ι → Prop} {i : ι}
  {x : Trace HtlcAct HtlcDb ι} {bridges : BridgeRegistry}

/-- A query answers what is there, and nothing has changed when the answer arrives. -/
theorem follows_read {o : HtlcStmt} {v : HtlcDb → o.Reply}
    {Q : Except HtlcError o.Reply → Trace HtlcAct HtlcDb ι → Prop}
    (hv : ∀ db, execHtlcStmt o db = (.ok (v db), db))
    (hmay : ∀ y, (htlcProtocol sha256 bind mayFail).may i y (.sql o))
    (hok : ∀ y z : Trace HtlcAct HtlcDb ι, Persists x.2 y.2 → HtlcInv sha256 bind y.2 →
      Persists y.2 z.2 → (∀ id, z.2.swap id = y.2.swap id) → Q (.ok (v y.2)) z)
    (herr : ∀ e z, Q (.error e) z) :
    (htlcProtocol sha256 bind mayFail).Follows i Q (htlcSql o).run x := by
  refine Protocol.follows_op fun y hr hinv _ => ⟨hmay y, fun n => ?_⟩
  have hpers := execHtlc_persists n (.sql o) y.2
  cases hf : n.fate with
  | served =>
    have hex : execHtlc n (.sql o) y.2 = (.ok (v y.2), { y.2 with clock := y.2.clock + n.elapse }) := by
      simp only [execHtlc, serveAct, hf, Fate.serve, hv, Call.mapError_ok]
    rw [hex]
    refine hok y _ hr hinv hpers fun id => ?_
    show (execHtlc n (.sql o) y.2).2.swap id = _
    rw [hex]
    rfl
  | refused =>
    simp only [execHtlc, serveAct, hf, Fate.serve, Call.mapError_error]
    exact herr _ _
  | lost =>
    simp only [execHtlc, serveAct, hf, Fate.serve, Call.mapError_error]
    exact herr _ _

/-- A swap that is read is there. -/
theorem follows_getSwap {id : Uuid} {Q : Except HtlcError HtlcSwap → Trace HtlcAct HtlcDb ι → Prop}
    (hok : ∀ s (y : Trace HtlcAct HtlcDb ι), y.2.swap id = some s → Q (.ok s) y)
    (herr : ∀ e y, Q (.error e) y) :
    (htlcProtocol sha256 bind mayFail).Follows i Q (getSwap id).run x := by
  refine Protocol.follows_bind_run (follows_read (v := fun db => db.swap id) (fun _ => rfl)
    (fun _ => trivial) (fun y z _ _ _ hsame => ?_) fun e z => herr e z)
  exact Protocol.follows_orThrow (fun _ => herr _ _) fun s hs => hok s z ((hsame id).trans hs)

theorem follows_checkSecret {s : HtlcSwap} {secret : Secret}
    {Q : Except HtlcError Unit → Trace HtlcAct HtlcDb ι → Prop}
    (hok : Opens sha256 secret.1 s.secretHash → Q (.ok ()) x) (herr : ∀ e, Q (.error e) x) :
    (htlcProtocol sha256 bind mayFail).Follows i Q (checkSecret sha256 s secret).run x := by
  refine Protocol.follows_bind_run (Protocol.follows_orThrow (fun _ => herr _) fun expected hexp => ?_)
  refine Protocol.follows_failIf (fun _ => herr _) fun hv => hok ⟨secret, rfl, ?_⟩
  have heq : sha256 secret = expected := eq_of_beq (Bool.eq_true_of_not_eq_false hv)
  rw [heq, toSecret_some hexp]

theorem obeys_transition {update : Htlc Nat} {msg : String}
    (hu : (htlcProtocol sha256 bind mayFail).Obeys i update.run) :
    (htlcProtocol sha256 bind mayFail).Obeys i (transition update msg).run :=
  Protocol.obeys_bind_run hu fun _ => Protocol.obeys_failIf

/-- A row that is still there has the hash and the timelock it was read with. -/
theorem Persists.later {db db' : HtlcDb} {id : Uuid} {s s' : HtlcSwap} (h : Persists db db')
    (hs : db.swap id = some s) (hs' : db'.swap id = some s') :
    s'.secretHash = s.secretHash ∧ s'.sourceTimelock = s.sourceTimelock ∧
      (s.secret.isSome = true → s'.secret.isSome = true) := by
  obtain ⟨s'', hs'', hkeep⟩ := h.swap id s hs
  rw [hs'] at hs''
  cases hs''
  exact hkeep

theorem obeys_createSwap (id : Uuid) (secret : Secret) (params : CreateHtlcParams) :
    (htlcProtocol sha256 bind mayFail).Obeys i (createSwap sha256 id secret params).run := by
  refine Protocol.obeys_bind_run (Protocol.obeys_op fun _ => trivial) fun now => ?_
  refine Protocol.obeys_bind_run (Protocol.obeys_op fun _ => ⟨rfl, rfl⟩) fun _ => ?_
  exact Protocol.obeys_ret _

/-- The hash a secret was checked against is still the one of the row it is written to. -/
theorem follows_opened {id : Uuid} {s : HtlcSwap} {bytes : List UInt8} {o : HtlcStmt}
    {Q : Except HtlcError o.Reply → Trace HtlcAct HtlcDb ι → Prop} (hs : x.2.swap id = some s)
    (hopen : Opens sha256 bytes s.secretHash)
    (hmay : ∀ y : Trace HtlcAct HtlcDb ι,
      (∀ s', y.2.swap id = some s' → Opens sha256 bytes s'.secretHash) →
        (htlcProtocol sha256 bind mayFail).may i y (.sql o)) (hQ : ∀ r y, Q r y) :
    (htlcProtocol sha256 bind mayFail).Follows i Q (htlcSql o).run x := by
  refine Protocol.follows_op fun y hr _ _ => ⟨hmay y fun s' hs' => ?_, fun n => hQ _ _⟩
  rw [(hr.later hs hs').1]
  exact hopen

theorem obeys_storeSecret (id : Uuid) (secret : Secret) :
    (htlcProtocol sha256 bind mayFail).Obeys i (storeSecret sha256 id secret).run := by
  intro x
  refine Protocol.follows_bind_run (follows_getSwap (fun s y hs => ?_) fun _ _ => trivial)
  refine Protocol.follows_bind_run (follows_checkSecret (fun hopen => ?_) fun _ => trivial)
  refine Protocol.follows_bind_run (follows_opened hs hopen (fun y hy _ => hy) fun r z => ?_)
  split <;> trivial

theorem obeys_recordDestClaim (id : Uuid) (secret : Secret) (tx : String) :
    (htlcProtocol sha256 bind mayFail).Obeys i (recordDestClaim sha256 id secret tx).run := by
  intro x
  refine Protocol.follows_bind_run (follows_getSwap (fun s y hs => ?_) fun _ _ => trivial)
  refine Protocol.follows_bind_run (follows_checkSecret (fun hopen => ?_) fun _ => trivial)
  refine Protocol.follows_bind_run (follows_opened hs hopen (fun y hy _ => hy) fun r z => ?_)
  split
  · exact Protocol.obeys_failIf _
  · trivial

/-- The secret that was read may have been replaced since, but not removed. -/
theorem obeys_recordDestClaimWithStoredSecret (id : Uuid) (tx : String) :
    (htlcProtocol sha256 bind mayFail).Obeys i
      (recordDestClaimWithStoredSecret sha256 id tx).run := by
  intro x
  refine Protocol.follows_bind_run (follows_getSwap (fun s y hs => ?_) fun _ _ => trivial)
  refine Protocol.follows_bind_run (Protocol.follows_orThrow (fun _ => trivial) fun bytes hb => ?_)
  refine Protocol.follows_bind_run (Protocol.follows_orThrow (fun _ => trivial) fun secret _ => ?_)
  refine Protocol.follows_bind_run (follows_checkSecret (fun _ => ?_) fun _ => trivial)
  refine Protocol.follows_bind_run (Protocol.follows_op fun z hr _ _ => ⟨fun _ s' hs' => ?_, fun n => ?_⟩)
  · exact (hr.later hs hs').2.2 (by rw [hb]; rfl)
  · split
    · exact Protocol.obeys_failIf _
    · trivial

/-- The timelock that had passed when the clock was read has passed when the refund is written. -/
theorem obeys_refundSwap (id : Uuid) :
    (htlcProtocol sha256 bind mayFail).Obeys i (refundSwap id).run := by
  intro x
  refine Protocol.follows_bind_run (follows_getSwap (fun s y hs => ?_) fun _ _ => trivial)
  refine Protocol.follows_bind_run (Protocol.follows_op fun z hr _ _ => ⟨trivial, fun n => ?_⟩)
  refine Protocol.follows_bind_run (Protocol.follows_failIf (fun _ => trivial) fun hnow => ?_)
  refine Protocol.follows_bind_run (Protocol.follows_failIf (fun _ => trivial) fun _ => ?_)
  refine Protocol.follows_bind_run (Protocol.follows_op fun v hv _ _ => ⟨fun s' hs' => ?_, fun m => ?_⟩)
  · have hpers : Persists z.2 v.2 := (execHtlc_persists n .now z.2).trans hv
    rw [((hr.trans hpers).later hs hs').2.1]
    have hread : s.sourceTimelock ≤ z.2.clock := not_lt.1 hnow
    exact hread.trans hpers.clock
  · split
    · exact Protocol.obeys_failIf _
    · trivial

theorem obeys_failSwap (hi : bind = true → mayFail i) (id : Uuid) (e : String) :
    (htlcProtocol sha256 bind mayFail).Obeys i (failSwap id e).run :=
  Protocol.obeys_bind_run (Protocol.obeys_op fun _ => hi) fun _ => Protocol.obeys_ret _

/-! ### The phases -/

theorem obeys_forSwaps {body : HtlcSwap → HtlcProg Nat} {swaps : List HtlcSwap}
    (hbody : ∀ s ∈ swaps, (htlcProtocol sha256 bind mayFail).Obeys i (body s)) :
    (htlcProtocol sha256 bind mayFail).Obeys i (forSwaps body swaps) := by
  induction swaps with
  | nil => exact Protocol.obeys_ret _
  | cons s swaps ih =>
    refine Protocol.obeys_bind (hbody s List.mem_cons_self) fun n => ?_
    refine Protocol.obeys_bind (ih fun s' hs' => hbody s' (List.mem_cons_of_mem _ hs')) fun m => ?_
    exact Protocol.obeys_ret _

/-- A phase may assume of the swaps of its query what the invariant says of the table. -/
theorem obeys_phase {find : Htlc (List HtlcSwap)} {body : HtlcSwap → HtlcProg Nat}
    (hfind : ∀ x, (htlcProtocol sha256 bind mayFail).Follows i
      (fun r _ => ∀ swaps, r = .ok swaps → ∀ s ∈ swaps, bind = true → Bound sha256 s) find.run x)
    (hbody : ∀ s, (bind = true → Bound sha256 s) →
      (htlcProtocol sha256 bind mayFail).Obeys i (body s)) :
    (htlcProtocol sha256 bind mayFail).Obeys i (phase find body) := by
  refine fun x => Protocol.follows_bind ((hfind x).mono fun r y hr => ?_)
  cases r with
  | error e => trivial
  | ok swaps => exact obeys_forSwaps (fun s hs => hbody s (hr swaps rfl s hs)) y

theorem HtlcDb.swap_of_select {db : HtlcDb} {p : HtlcSwap → Bool} {key : HtlcSwap → Option Int}
    {s : HtlcSwap} (h : s ∈ db.select p key) : db.swap s.id = some s := by
  have hmem := (List.mem_insertionSort _).1 (List.mem_of_mem_take h)
  exact HtlcDb.swap_some_iff.2 ⟨(List.mem_filter.1 hmem).1, rfl⟩

/-- The swaps of a query are rows of the table. -/
theorem HtlcInv.select {db : HtlcDb} (h : HtlcInv sha256 bind db) (p : HtlcSwap → Bool)
    (key : HtlcSwap → Option Int) (swaps : List HtlcSwap)
    (hr : (.ok (db.select p key) : Except HtlcError _) = .ok swaps) :
    ∀ s ∈ swaps, bind = true → Bound sha256 s := by
  cases hr
  exact fun s hs hb => h.bound hb s.id s (HtlcDb.swap_of_select hs)

theorem obeys_lockSourceOne (hi : bind = true → mayFail i) (s : HtlcSwap) :
    (htlcProtocol sha256 bind mayFail).Obeys i (lockSourceOne bridges s) := by
  unfold lockSourceOne
  split
  · exact Protocol.obeys_bind (obeys_failSwap hi _ _) fun _ => Protocol.obeys_ret _
  · refine Protocol.obeys_bind (Protocol.obeys_ask fun _ => trivial) fun r => ?_
    cases r with
    | ok receipt =>
      refine Protocol.obeys_bind (obeys_transition (Protocol.obeys_op fun _ => trivial)) fun r => ?_
      cases r <;> exact Protocol.obeys_ret _
    | error e => exact Protocol.obeys_bind (obeys_failSwap hi _ _) fun _ => Protocol.obeys_ret _

theorem obeys_monitorOne (hi : bind = true → mayFail i) (s : HtlcSwap) :
    (htlcProtocol sha256 bind mayFail).Obeys i (monitorOne bridges s) := by
  unfold monitorOne
  split
  · refine Protocol.obeys_bind (Protocol.obeys_ask fun _ => trivial) fun r => ?_
    split
    · refine Protocol.obeys_bind (obeys_transition (Protocol.obeys_op fun _ => trivial)) fun r => ?_
      cases r <;> exact Protocol.obeys_ret _
    · exact Protocol.obeys_bind (obeys_failSwap hi _ _) fun _ => Protocol.obeys_ret _
    · exact Protocol.obeys_ret _
  · exact Protocol.obeys_ret _

/-- A bound secret passes the worker's checks. -/
theorem Opens.verified {bytes hash : Bytes} (h : Opens sha256 bytes hash) :
    ∃ secret expected, toSecret bytes = some secret ∧ toSecret hash = some expected ∧
      verifySecret sha256 secret expected = true := by
  obtain ⟨secret, rfl, rfl⟩ := h
  exact ⟨secret, sha256 secret, toSecret_val _, toSecret_val _, beq_self_eq_true _⟩

theorem obeys_claimOne {s : HtlcSwap} (hs : bind = true → Bound sha256 s) :
    (htlcProtocol sha256 bind mayFail).Obeys i (claimOne sha256 bridges s) := by
  -- with a bound secret none of the branches that give up the swap is taken
  have hok : ∀ bytes, s.secret = some bytes → bind = true → ∃ secret expected,
      toSecret bytes = some secret ∧ toSecret s.secretHash = some expected ∧
      verifySecret sha256 secret expected = true :=
    fun bytes hb hbind => ((hs hbind).opens bytes hb).verified
  unfold claimOne
  split
  · exact Protocol.obeys_ret _
  · next bytes hbytes =>
    split
    · next hnone =>
      refine Protocol.obeys_bind (obeys_failSwap (fun hbind => ?_) _ _) fun _ => Protocol.obeys_ret _
      obtain ⟨secret, _, h₁, -, -⟩ := hok bytes hbytes hbind
      rw [h₁] at hnone
      cases hnone
    · next secret hsecret =>
      split
      · next hnone =>
        refine Protocol.obeys_bind (obeys_failSwap (fun hbind => ?_) _ _) fun _ => Protocol.obeys_ret _
        obtain ⟨_, _, -, h₂, -⟩ := hok bytes hbytes hbind
        rw [h₂] at hnone
        cases hnone
      · next expected hexpected =>
        split
        · split
          · exact Protocol.obeys_ret _
          · refine Protocol.obeys_bind (Protocol.obeys_ask fun _ => trivial) fun r => ?_
            cases r with
            | ok claimTx =>
              refine Protocol.obeys_bind (obeys_recordDestClaim _ _ _) fun r => ?_
              cases r <;> exact Protocol.obeys_ret _
            | error e => exact Protocol.obeys_ret _
        · next hbad =>
          refine Protocol.obeys_bind (obeys_failSwap (fun hbind => ?_) _ _) fun _ => Protocol.obeys_ret _
          obtain ⟨_, _, h₁, h₂, h₃⟩ := hok bytes hbytes hbind
          rw [hsecret] at h₁
          rw [hexpected] at h₂
          cases h₁
          cases h₂
          exact absurd h₃ hbad

theorem obeys_unlockOne {s : HtlcSwap} (hs : bind = true → Bound sha256 s) :
    (htlcProtocol sha256 bind mayFail).Obeys i (unlockOne sha256 bridges s) := by
  unfold unlockOne
  split
  · next secret expected hsecret hexpected =>
    split
    · split
      · exact Protocol.obeys_ret _
      · refine Protocol.obeys_bind (Protocol.obeys_ask fun _ => trivial) fun r => ?_
        cases r with
        | ok unlockTx =>
          refine Protocol.obeys_bind (obeys_transition (Protocol.obeys_op fun _ => trivial)) fun r => ?_
          cases r <;> exact Protocol.obeys_ret _
        | error e => exact Protocol.obeys_ret _
    · next hbad =>
      refine Protocol.obeys_bind (obeys_failSwap (fun hbind => ?_) _ _) fun _ => Protocol.obeys_ret _
      obtain ⟨bytes, hbytes, hsec⟩ := Option.bind_eq_some_iff.1 hsecret
      obtain ⟨_, _, h₁, h₂, h₃⟩ := ((hs hbind).opens bytes hbytes).verified
      rw [hsec] at h₁
      rw [hexpected] at h₂
      cases h₁
      cases h₂
      exact absurd h₃ hbad
  · exact Protocol.obeys_ret _

theorem obeys_phaseLockSource (hi : bind = true → mayFail i) :
    (htlcProtocol sha256 bind mayFail).Obeys i (phaseLockSource bridges) := by
  refine obeys_phase (fun x => ?_) fun s _ => obeys_lockSourceOne hi s
  refine Protocol.follows_bind_run (Protocol.follows_op fun y _ _ _ => ⟨trivial, fun n => ?_⟩)
  exact follows_read (fun _ => rfl) (fun _ => trivial) (fun y z _ hinv _ _ => hinv.select _ _)
    fun e z swaps hr => (nomatch hr)

theorem obeys_phaseMonitorDestLock (hi : bind = true → mayFail i) :
    (htlcProtocol sha256 bind mayFail).Obeys i (phaseMonitorDestLock bridges) := by
  refine obeys_phase (fun x => ?_) fun s _ => obeys_monitorOne hi s
  exact follows_read (fun _ => rfl) (fun _ => trivial) (fun y z _ hinv _ _ => hinv.select _ _)
    fun e z swaps hr => (nomatch hr)

theorem obeys_phaseClaimDestination :
    (htlcProtocol sha256 bind mayFail).Obeys i (phaseClaimDestination sha256 bridges) := by
  refine obeys_phase (fun x => ?_) fun s hs => obeys_claimOne hs
  exact follows_read (fun _ => rfl) (fun _ => trivial) (fun y z _ hinv _ _ => hinv.select _ _)
    fun e z swaps hr => (nomatch hr)

theorem obeys_phaseUnlockSource :
    (htlcProtocol sha256 bind mayFail).Obeys i (phaseUnlockSource sha256 bridges) := by
  refine obeys_phase (fun x => ?_) fun s hs => obeys_unlockOne hs
  exact follows_read (fun _ => rfl) (fun _ => trivial) (fun y z _ hinv _ _ => hinv.select _ _)
    fun e z swaps hr => (nomatch hr)

theorem obeys_phaseRefundExpired :
    (htlcProtocol sha256 bind mayFail).Obeys i phaseRefundExpired := by
  refine obeys_phase (fun x => ?_) fun s _ => ?_
  · refine Protocol.follows_bind_run (Protocol.follows_op fun y _ _ _ => ⟨trivial, fun n => ?_⟩)
    exact follows_read (fun _ => rfl) (fun _ => trivial) (fun y z _ hinv _ _ => hinv.select _ _)
      fun e z swaps hr => (nomatch hr)
  · refine Protocol.obeys_bind (obeys_refundSwap _) fun r => ?_
    cases r <;> exact Protocol.obeys_ret _

theorem obeys_worker (hi : bind = true → mayFail i) (n : Nat) :
    (htlcProtocol sha256 bind mayFail).Obeys i (htlcWorker sha256 bridges n) := by
  induction n with
  | zero => exact Protocol.obeys_ret _
  | succ n ih =>
    refine Protocol.obeys_bind (obeys_phaseLockSource hi) fun _ => ?_
    refine Protocol.obeys_bind (obeys_phaseMonitorDestLock hi) fun _ => ?_
    refine Protocol.obeys_bind obeys_phaseClaimDestination fun _ => ?_
    refine Protocol.obeys_bind obeys_phaseUnlockSource fun _ => ?_
    exact Protocol.obeys_bind obeys_phaseRefundExpired fun _ => ih

/-- **Every request follows the protocol**; the deprecated one as far as secrets are not watched. -/
theorem HtlcReq.obeys {req : HtlcReq} (hc : bind = true → req.checked = true)
    (hi : req.mayFail = true → mayFail i) :
    (htlcProtocol sha256 bind mayFail).Obeys i (req.task sha256 bridges) := by
  have hdone : ∀ {α : Type} {p : HtlcProg α}, (htlcProtocol sha256 bind mayFail).Obeys i p →
      (htlcProtocol sha256 bind mayFail).Obeys i (done p) :=
    fun hp => Protocol.obeys_bind hp fun _ => Protocol.obeys_ret _
  cases req with
  | createSwap id secret params => exact hdone (obeys_createSwap id secret params)
  | storeSecret id secret => exact hdone (obeys_storeSecret id secret)
  | recordSourceLock id tx => exact hdone (obeys_transition (Protocol.obeys_op fun _ => trivial))
  | recordDestLock id tx => exact hdone (obeys_transition (Protocol.obeys_op fun _ => trivial))
  | recordDestClaim id secret tx => exact hdone (obeys_recordDestClaim id secret tx)
  | recordDestClaimWithStoredSecret id tx => exact hdone (obeys_recordDestClaimWithStoredSecret id tx)
  | recordDestClaimUnchecked id tx =>
    exact hdone (obeys_transition (Protocol.obeys_op fun _ hb => (nomatch hc hb)))
  | completeSwap id tx => exact hdone (obeys_transition (Protocol.obeys_op fun _ => trivial))
  | refundSwap id => exact hdone (obeys_refundSwap id)
  | failSwap id e => exact hdone (obeys_failSwap (fun _ => hi rfl) id e)
  | phaseLockSource => exact hdone (obeys_phaseLockSource fun _ => hi rfl)
  | phaseMonitorDestLock => exact hdone (obeys_phaseMonitorDestLock fun _ => hi rfl)
  | phaseClaimDestination => exact hdone obeys_phaseClaimDestination
  | phaseUnlockSource => exact hdone obeys_phaseUnlockSource
  | phaseRefundExpired => exact hdone obeys_phaseRefundExpired
  | worker n => exact obeys_worker (fun _ => hi rfl) n

end Follow

/-! ## The acts of the worker -/

/-- An act that moves no funds. -/
def Still : HtlcAct → Prop
  | .lockFunds .. | .releaseFunds .. => False
  | _ => True

section Still

variable {S : HtlcAct → Prop} {sha256 : Secret → SecretHash} {bridges : BridgeRegistry}

theorem getSwap_issues (id : Uuid) : Call.Issues Still (getSwap id) :=
  Call.issues_bind (Call.issues_op trivial) fun _ => Call.issues_orThrow

theorem recordDestClaim_issues (id : Uuid) (secret : Secret) (tx : String) :
    Call.Issues Still (recordDestClaim sha256 id secret tx) := by
  have hcheck : ∀ s, Call.Issues Still (checkSecret sha256 s secret) := fun _ =>
    Call.issues_bind Call.issues_orThrow fun _ => Call.issues_failIf
  exact Call.issues_bind (getSwap_issues id) fun s => Call.issues_bind (hcheck s) fun _ =>
    Call.issues_bind (Call.issues_op trivial) fun _ => Call.issues_failIf

theorem refundSwap_issues (id : Uuid) : Call.Issues Still (refundSwap id) :=
  Call.issues_bind (getSwap_issues id) fun _ => Call.issues_bind (Call.issues_op trivial) fun _ =>
    Call.issues_bind Call.issues_failIf fun _ => Call.issues_bind Call.issues_failIf fun _ =>
      Call.issues_bind (Call.issues_op trivial) fun _ => Call.issues_failIf

theorem failSwap_issues (id : Uuid) (e : String) : Call.Issues Still (failSwap id e) :=
  Call.issues_bind (Call.issues_op trivial) fun _ => Call.issues_pure _

theorem failAndSkip_issues (s : HtlcSwap) (e : String) : (failAndSkip s e).Issues Still :=
  Prog.issues_bind (failSwap_issues s.id e) fun _ => trivial

theorem phase_issues {find : Htlc (List HtlcSwap)} {body : HtlcSwap → HtlcProg Nat}
    (hfind : Call.Issues S find) (hbody : ∀ s, (body s).Issues S) : (phase find body).Issues S := by
  have hswaps : ∀ swaps, (forSwaps body swaps).Issues S := by
    intro swaps
    induction swaps with
    | nil => trivial
    | cons s swaps ih => exact Prog.issues_bind (hbody s) fun _ => Prog.issues_bind ih fun _ => trivial
  refine Prog.issues_bind hfind fun r => ?_
  cases r with
  | error e => trivial
  | ok swaps => exact hswaps swaps

theorem phaseMonitorDestLock_issues : (phaseMonitorDestLock bridges).Issues Still := by
  refine phase_issues (Call.issues_op trivial) fun s => ?_
  unfold monitorOne
  split
  · refine Prog.issues_bind (Prog.issues_ask trivial) fun r => ?_
    split
    · refine Prog.issues_bind (Call.issues_bind (Call.issues_op trivial) fun _ => Call.issues_failIf)
        fun r => ?_
      cases r <;> trivial
    · exact Prog.issues_bind (failSwap_issues _ _) fun _ => trivial
    · trivial
  · trivial

theorem findPendingLocks_issues : Call.Issues Still findPendingLocks :=
  Call.issues_bind (Call.issues_op trivial) fun _ => Call.issues_op trivial

theorem phaseRefundExpired_issues : phaseRefundExpired.Issues Still := by
  refine phase_issues (Call.issues_bind (Call.issues_op trivial) fun _ => Call.issues_op trivial)
    fun s => ?_
  refine Prog.issues_bind (refundSwap_issues _) fun r => ?_
  cases r <;> trivial

end Still

end IntentX
