import IntentX.HtlcSafety

/-!
# What the HTLC worker does with the funds

* `released_not_refunded`: the worker releases the destination funds first and records the claim
  afterwards.  If the claim is not recorded before the timelock, the swap is refunded as well
  (`released_and_refunded`); if it always is, no released swap is refunded.
* `claimed_followed_through`: `fail_swap` also hits a swap in `DestClaimed`, and the first two
  phases call it for swaps they read a while ago (`claimed_then_failed`).  If these calls never
  meet a claimed swap, a claimed swap stays claimed until the source is unlocked.
-/

namespace IntentX

open Lib

variable {ι : Type}

/-! ## Releases and refunds -/

/-- The release of the destination funds of a swap has gone through. -/
def HtlcDb.destReleased (db : HtlcDb) (id : Uuid) : Bool :=
  db.effects.any fun
    | .released .dest id' _ _ _ => id' == id
    | _ => false

/-- `phase_claim_destination` asks for the funds of the swap. -/
def HtlcAct.releasesDest (id : Uuid) : HtlcAct → Bool
  | .releaseFunds .dest id' _ _ => id' == id
  | _ => false

def HtlcSwap.refundable (s : HtlcSwap) : Bool := s.status == .Created || s.status == .SourceLocked

/-- An act in time: a release is not for a swap that has been refunded, and a swap whose funds are
released has been recorded as claimed when its timelock passes. -/
def inTime (d : Done HtlcAct HtlcDb ι) : Bool :=
  d.store.swaps.rows.all fun s =>
    !(d.op.releasesDest s.id && s.status == .Refunded) &&
    !(d.store.destReleased s.id && s.refundable && decide (s.sourceTimelock ≤ d.store.clock))

theorem inTime_spec {d : Done HtlcAct HtlcDb ι} (h : inTime d = true) {id : Uuid} {s : HtlcSwap}
    (hs : d.store.swap id = some s) :
    (d.op.releasesDest id = true → s.status ≠ .Refunded) ∧
    (d.store.destReleased id = true → s.refundable = true → d.store.clock < s.sourceTimelock) := by
  obtain ⟨hmem, rfl⟩ := HtlcDb.swap_some_iff.1 hs
  have hall := List.all_eq_true.1 h s hmem
  simp only [Bool.and_eq_true, Bool.not_eq_true', Bool.and_eq_false_imp, beq_eq_false_iff_ne,
    decide_eq_false_iff_not, not_le, and_imp] at hall
  exact hall

theorem bridge_effects {α : Type} (db : HtlcDb) (r : Except BridgeError α) (f : α → List Effect) :
    (db.bridge r f).2.effects = db.effects ∨
      ∃ a, (db.bridge r f).2.effects = f a ++ db.effects := by
  unfold HtlcDb.bridge
  split
  · exact .inr ⟨_, rfl⟩
  · exact .inl rfl

theorem execHtlcStmt_effects (o : HtlcStmt) (db : HtlcDb) :
    (execHtlcStmt o db).2.effects = db.effects := by
  cases o with
  | insertSwap s =>
    simp only [execHtlcStmt]
    split
    · split <;> rfl
    · rfl
  | _ => rfl

/-- Only a release releases. -/
theorem execHtlc_destReleased {n : Turn} {o : HtlcAct} {db : HtlcDb} {id : Uuid}
    (h : (execHtlc n o db).2.destReleased id = true) :
    db.destReleased id = true ∨ o.releasesDest id = true := by
  have heff : (execHtlc n o db).2.effects = (serveAct n o db).2.effects := rfl
  unfold HtlcDb.destReleased at h ⊢
  rw [heff] at h
  cases o with
  | sql st =>
    have hsame : (serveAct n (.sql st) db).2.effects = db.effects := by
      simp only [serveAct]
      cases n.fate with
      | refused => rfl
      | served | lost => exact execHtlcStmt_effects st db
    rw [hsame] at h
    exact .inl h
  | now => exact .inl h
  | lockFunds id' params =>
    rcases bridge_effects db (n.lock params) fun r => [.locked id' params r.txHash] with he | ⟨a, he⟩
    all_goals
      simp only [serveAct, he] at h
      exact .inl (by simpa using h)
  | verifyLock id' tx =>
    rcases bridge_effects db (n.verify tx) fun _ => [] with he | ⟨a, he⟩
    all_goals
      simp only [serveAct, he] at h
      exact .inl (by simpa using h)
  | releaseFunds side id' params msg =>
    rcases bridge_effects db (n.release params msg)
      fun tx => [.released side id' params msg tx] with he | ⟨a, he⟩
    · simp only [serveAct, he] at h
      exact .inl h
    · simp only [serveAct, he] at h
      cases side with
      | source => exact .inl (by simpa using h)
      | dest =>
        simp only [List.singleton_append, List.any_cons, Bool.or_eq_true] at h
        exact h.symm

/-- Released swaps are not refunded. -/
def NotBoth (db : HtlcDb) : Prop :=
  ∀ id s, db.swap id = some s → db.destReleased id = true → s.status ≠ .Refunded

theorem NotBoth.step {db : HtlcDb} {sha256 : Secret → SecretHash} {mayFail : Prop} (h : NotBoth db)
    (i : ι) (n : Turn) {o : HtlcAct} (hj : Justified sha256 false mayFail db o)
    (htime : inTime (⟨i, o, db⟩ : Done HtlcAct HtlcDb ι) = true) :
    NotBoth (execHtlc n o db).2 := by
  intro id s hs hrel
  have hbefore := execHtlc_destReleased hrel
  have hkeep : db.swap id = some s → s.status ≠ .Refunded := by
    intro hs₀
    rcases hbefore with hold | hnew
    · exact h id s hs₀ hold
    · exact (inTime_spec htime hs₀).1 hnew
  rcases execHtlc_swap n o db id with hsame | ⟨st, rfl, hsame | ⟨s', rfl, -, -, hs'⟩ |
    ⟨s₀, s', hs₀, hs', hw⟩⟩
  · exact hkeep (hsame.symm.trans hs)
  · exact hkeep (hsame.symm.trans hs)
  · rw [hs] at hs'
    cases hs'
    rw [hj.1]
    simp
  · rw [hs] at hs'
    cases hs'
    -- a statement releases nothing, so the funds were released before
    have hold : db.destReleased id = true := hbefore.resolve_right (by simp [HtlcAct.releasesDest])
    cases hw with
    | secret b hst => exact h id s₀ hs₀ hold
    | destLock tx hst => exact h id s₀ hs₀ hold
    | refunded hst =>
      have hid := (HtlcDb.swap_some_iff.1 hs₀).2
      have hlate : s₀.sourceTimelock ≤ db.clock := hj s₀ (hid.symm ▸ hs₀)
      have hearly := (inTime_spec htime hs₀).2 hold (by simpa [HtlcSwap.refundable] using hst)
      exact absurd hlate (not_le.2 hearly)
    | sourceLocked | destClaimed | destClaimedOnly | sourceUnlocked | failed => simp

/-- The protocol of runs in time. -/
def releaseProtocol (sha256 : Secret → SecretHash) (mayFail : ι → Prop) : Protocol execHtlc ι where
  inv x := HtlcInv sha256 false x.2 ∧ NotBoth x.2
  rely x y := Persists x.2 y.2
  may i x o := Justified sha256 false (mayFail i) x.2 o
  given i x o := inTime ⟨i, o, x.2⟩ = true
  refl := Persists.rely_refl
  trans := @Persists.rely_trans ι
  step n hinv hmay htime :=
    ⟨⟨hinv.1.step n hmay, hinv.2.step _ n hmay htime⟩, execHtlc_persists n _ _⟩

section Runs

variable [DecidableEq ι] (sha256 : Secret → SecretHash) (bridges : BridgeRegistry)
  (reqs : ι → HtlcReq) (db₀ : HtlcDb) (l : List (Done HtlcAct HtlcDb ι))
  (p : Pool HtlcAct HtlcAct.Reply HtlcActError HtlcDb ι)

/-- **A run in time never refunds a swap whose destination funds were released.** -/
theorem released_not_refunded (hdb : db₀.swaps.rows = [])
    (run : Pool.Run execHtlc (htlcPool sha256 bridges reqs db₀) l p)
    (htime : ∀ d ∈ l, inTime d = true) :
    ∀ id s, p.store.swap id = some s → p.store.destReleased id = true → s.status ≠ .Refunded := by
  have hobey := reqs_obey_of (releaseProtocol sha256 fun i => (reqs i).mayFail = true) sha256 bridges
    reqs false nofun (fun _ _ h => h) (fun _ h => h.1) fun _ _ _ h => h
  have hstart : NotBoth db₀ := by
    intro id s hs
    rw [HtlcDb.swap_none_of_empty hdb] at hs
    cases hs
  obtain ⟨hkept, -⟩ := Protocol.run_follows
    (P := releaseProtocol sha256 fun i => (reqs i).mayFail = true) run
    (Protocol.given_of_mem fun d hd _ => htime d hd) ⟨HtlcInv.of_empty hdb sha256 false, hstart⟩
    fun i => hobey i _
  exact hkept.inv.2

end Runs

/-- The claim is recorded at once. -/
theorem demo_released_not_refunded :
    (demoPlay (demoSched 16)).2.store.destReleased 1 = true ∧
    ∀ s, (demoPlay (demoSched 16)).2.store.swap 1 = some s → s.status ≠ .Refunded := by
  have hrel : (demoPlay (demoSched 16)).2.store.destReleased 1 = true := by decide +kernel
  have hall := released_not_refunded demoSha256 demoBridges demoReqs demoHtlcDb _ _ rfl
    (demoPlay_run (demoSched 16)) (by decide +kernel)
  exact ⟨hrel, fun s hs => hall 1 s hs hrel⟩

/-- The funds are released, the database does not take the claim, and a minute later the swap is
refunded. -/
def lateSched : List (Nat × Turn) :=
  demoSched 10 ++ [(2, demoTurn .refused 60000000)] ++
    List.replicate 6 (2, demoTurn .served 1)

theorem released_and_refunded :
    ¬ ∀ (reqs : Nat → HtlcReq) (l : List (Done HtlcAct HtlcDb Nat))
      (p : Pool HtlcAct HtlcAct.Reply HtlcActError HtlcDb Nat),
      Pool.Run execHtlc (htlcPool demoSha256 demoBridges reqs demoHtlcDb) l p →
      ∀ id s, p.store.swap id = some s → p.store.destReleased id = true → s.status ≠ .Refunded := by
  intro h
  have hst : ((demoPlay lateSched).2.store.swap 1).map (·.status) = some .Refunded := by
    decide +kernel
  obtain ⟨s, hs, href⟩ := Option.map_eq_some_iff.1 hst
  exact h demoReqs _ _ (demoPlay_run lateSched) 1 s hs (by decide +kernel) href

/-! ## Claimed swaps -/

/-- The callers of the service that do not give up a swap, and the phases of the worker. -/
def HtlcReq.regular : HtlcReq → Bool
  | .recordDestClaimUnchecked .. | .failSwap .. | .worker _ => false
  | _ => true

theorem HtlcReq.checked_of_regular {req : HtlcReq} (h : req.regular = true) :
    req.checked = true := by
  cases req with
  | recordDestClaimUnchecked => cases h
  | _ => rfl

/-- A `fail_swap` does not meet a claimed swap. -/
def failsUnclaimed (d : Done HtlcAct HtlcDb ι) : Bool :=
  match d.op with
  | .sql (.setFailed id _) => (d.store.swap id).all (·.status != .DestClaimed)
  | _ => true

/-- A claimed swap stays so until it is unlocked, and then stays unlocked. -/
structure Forward (db db' : HtlcDb) : Prop extends Persists db db' where
  claimed : ∀ id s, db.swap id = some s → s.status = .DestClaimed → ∃ s', db'.swap id = some s' ∧
    (s'.status = .DestClaimed ∨ s'.status = .SourceUnlocked)
  unlocked : ∀ id s, db.swap id = some s → s.status = .SourceUnlocked →
    ∃ s', db'.swap id = some s' ∧ s'.status = .SourceUnlocked

theorem Forward.refl (db : HtlcDb) : Forward db db :=
  ⟨.refl db, fun _ s hs hst => ⟨s, hs, .inl hst⟩, fun _ s hs hst => ⟨s, hs, hst⟩⟩

theorem Forward.trans {db₁ db₂ db₃ : HtlcDb} (h : Forward db₁ db₂) (h' : Forward db₂ db₃) :
    Forward db₁ db₃ := by
  refine ⟨h.toPersists.trans h'.toPersists, fun id s hs hst => ?_, fun id s hs hst => ?_⟩
  · obtain ⟨s₂, hs₂, hst₂ | hst₂⟩ := h.claimed id s hs hst
    · exact h'.claimed id s₂ hs₂ hst₂
    · obtain ⟨s₃, hs₃, hst₃⟩ := h'.unlocked id s₂ hs₂ hst₂
      exact ⟨s₃, hs₃, .inr hst₃⟩
  · obtain ⟨s₂, hs₂, hst₂⟩ := h.unlocked id s hs hst
    exact h'.unlocked id s₂ hs₂ hst₂

theorem Writes.forward {db : HtlcDb} {st : HtlcStmt} {s s' : HtlcSwap} (h : Writes db.clock st s s')
    (hs : db.swap s.id = some s) {i : ι}
    (hf : failsUnclaimed (⟨i, .sql st, db⟩ : Done HtlcAct HtlcDb ι) = true) :
    (s.status = .DestClaimed → s'.status = .DestClaimed ∨ s'.status = .SourceUnlocked) ∧
      (s.status = .SourceUnlocked → s'.status = .SourceUnlocked) := by
  cases h with
  | sourceUnlocked tx hst => exact ⟨fun _ => .inr rfl, fun _ => rfl⟩
  | failed e hst =>
    have hne : s.status ≠ .DestClaimed := by simpa [failsUnclaimed, hs] using hf
    exact ⟨fun h => absurd h hne, fun h => absurd h hst.1⟩
  | refunded hst =>
    rcases hst with hst | hst
    all_goals
      rw [hst]
      exact ⟨nofun, nofun⟩
  | secret _ hst | sourceLocked _ hst | destLock _ hst | destClaimed _ _ hst | destClaimedOnly _ hst =>
    rw [hst]
    exact ⟨nofun, nofun⟩

theorem execHtlc_forward (i : ι) (n : Turn) (o : HtlcAct) (db : HtlcDb)
    (hf : failsUnclaimed (⟨i, o, db⟩ : Done HtlcAct HtlcDb ι) = true) :
    Forward db (execHtlc n o db).2 := by
  have hcase : ∀ id s, db.swap id = some s → ∃ s', (execHtlc n o db).2.swap id = some s' ∧
      (s.status = .DestClaimed → s'.status = .DestClaimed ∨ s'.status = .SourceUnlocked) ∧
      (s.status = .SourceUnlocked → s'.status = .SourceUnlocked) := by
    intro id s hs
    rcases execHtlc_swap n o db id with hsame | ⟨st, rfl, hsame | ⟨_, -, -, hnone, -⟩ |
      ⟨s₀, s', hs₀, hs', hw⟩⟩
    · exact ⟨s, hsame.trans hs, .inl, fun h => h⟩
    · exact ⟨s, hsame.trans hs, .inl, fun h => h⟩
    · rw [hs] at hnone
      cases hnone
    · rw [hs] at hs₀
      cases hs₀
      have hid := (HtlcDb.swap_some_iff.1 hs).2
      exact ⟨s', hs', hw.forward (hid.symm ▸ hs) hf⟩
  refine ⟨execHtlc_persists n o db, fun id s hs hst => ?_, fun id s hs hst => ?_⟩
  · obtain ⟨s', hs', hc, -⟩ := hcase id s hs
    exact ⟨s', hs', hc hst⟩
  · obtain ⟨s', hs', -, hu⟩ := hcase id s hs
    exact ⟨s', hs', hu hst⟩

/-- Only those who may fail a swap do, and they do not fail a claimed one. -/
theorem failsUnclaimed_of_justified {sha256 : Secret → SecretHash} {db : HtlcDb} {i : ι}
    {mayFail : Prop} {o : HtlcAct} (hj : Justified sha256 true mayFail db o)
    (hg : mayFail → failsUnclaimed (⟨i, o, db⟩ : Done HtlcAct HtlcDb ι) = true) :
    failsUnclaimed (⟨i, o, db⟩ : Done HtlcAct HtlcDb ι) = true := by
  cases o with
  | sql st =>
    cases st with
    | setFailed id e => exact hg (hj rfl)
    | _ => rfl
  | _ => rfl

def forwardProtocol (sha256 : Secret → SecretHash) (mayFail : ι → Prop) : Protocol execHtlc ι where
  inv x := HtlcInv sha256 true x.2
  rely x y := Forward x.2 y.2
  may i x o := Justified sha256 true (mayFail i) x.2 o
  given i x o := mayFail i → failsUnclaimed (⟨i, o, x.2⟩ : Done HtlcAct HtlcDb ι) = true
  refl x := Forward.refl x.2
  trans := Forward.trans
  step n hinv hmay hg :=
    ⟨hinv.step n hmay, execHtlc_forward _ n _ _ (failsUnclaimed_of_justified hmay hg)⟩

section Runs

variable [DecidableEq ι] (sha256 : Secret → SecretHash) (bridges : BridgeRegistry)
  (reqs : ι → HtlcReq) (db₀ : HtlcDb) (l : List (Done HtlcAct HtlcDb ι))
  (p : Pool HtlcAct HtlcAct.Reply HtlcActError HtlcDb ι)

/-- **A claimed swap is followed through.**  If the first two phases do not fail a claimed swap, a
claimed swap is one that `find_pending_unlocks` finds, and it stays claimed until it is unlocked. -/
theorem claimed_followed_through (hdb : db₀.swaps.rows = []) (hreq : ∀ i, (reqs i).regular = true)
    (run : Pool.Run execHtlc (htlcPool sha256 bridges reqs db₀) l p)
    (hfail : ∀ d ∈ l, (reqs d.task).mayFail = true → failsUnclaimed d = true) :
    (∀ s ∈ p.store.swaps.rows, s.status = .DestClaimed → s.pendingUnlock = true) ∧
    ∀ d ∈ l, ∀ id s, d.store.swap id = some s → s.status = .DestClaimed →
      ∃ s', p.store.swap id = some s' ∧
        (s'.status = .DestClaimed ∨ s'.status = .SourceUnlocked) := by
  have hobey := reqs_obey_of (forwardProtocol sha256 fun i => (reqs i).mayFail = true) sha256 bridges
    reqs true (fun _ i => HtlcReq.checked_of_regular (hreq i)) (fun _ _ h => h.toPersists)
    (fun _ h => h) fun _ _ _ h => h
  obtain ⟨hkept, -⟩ := Protocol.run_follows
    (P := forwardProtocol sha256 fun i => (reqs i).mayFail = true) run
    (Protocol.given_of_mem fun d hd _ => hfail d hd) (HtlcInv.of_empty hdb sha256 true)
    fun i => hobey i _
  constructor
  · intro s hs hst
    have hbound := hkept.inv.bound rfl s.id s (HtlcDb.swap_some_iff.2 ⟨hs, rfl⟩)
    simp [HtlcSwap.pendingUnlock, hst, hbound.revealed (.inl hst)]
  · intro d hd id s hs hst
    obtain ⟨l', -, -, -, hfwd⟩ := hkept.past d hd
    exact hfwd.claimed id s hs hst

end Runs

/-- The swap of the demo, with the phases one by one and a caller who claims. -/
def claimReqs : Nat → HtlcReq
  | 0 => .createSwap 1 demoSecret demoSwapParams
  | 1 => .recordSourceLock 1 "0xlock"
  | 2 => .phaseMonitorDestLock
  | 3 => .recordDestClaim 1 demoSecret "0xclaim"
  | _ => .phaseUnlockSource

/-- The tasks take their turns in the given order; the bridge says that the transfer failed. -/
def claimPlay (order : List Nat) :
    List (Done HtlcAct HtlcDb Nat) × Pool HtlcAct HtlcAct.Reply HtlcActError HtlcDb Nat :=
  Pool.play execHtlc
    (order.map fun i => (i, { demoTurn .served 1 with verify := fun _ => .ok (.Failed "timeout") }))
    ([], htlcPool demoSha256 demoBridges claimReqs demoHtlcDb)

theorem claimPlay_run (order : List Nat) :
    Pool.Run execHtlc (htlcPool demoSha256 demoBridges claimReqs demoHtlcDb) (claimPlay order).1
      (claimPlay order).2 := by
  apply Pool.Run.play
  exact .start

/-- Claimed, then unlocked. -/
theorem demo_claimed_followed_through :
    ∃ s', (claimPlay [0, 0, 1, 3, 3, 4, 4, 4]).2.store.swap 1 = some s' ∧
      (s'.status = .DestClaimed ∨ s'.status = .SourceUnlocked) := by
  have hall := claimed_followed_through demoSha256 demoBridges claimReqs demoHtlcDb _ _ rfl
    (fun i => by rcases i with _ | _ | _ | _ | i <;> rfl)
    (claimPlay_run [0, 0, 1, 3, 3, 4, 4, 4]) (by decide +kernel)
  have hseen : (claimPlay [0, 0, 1, 3, 3, 4, 4, 4]).1.any
      (fun d => (d.store.swap 1).any (·.status == .DestClaimed)) = true := by decide +kernel
  obtain ⟨d, hd, hany⟩ := List.any_eq_true.1 hseen
  obtain ⟨s, hs, hst⟩ := (Option.any_eq_true _ _).1 hany
  exact hall.2 d hd 1 s hs (eq_of_beq hst)

/-- The phase reads the swap before it is claimed, and fails it afterwards. -/
theorem claimed_then_failed :
    ¬ ∀ (reqs : Nat → HtlcReq) (l : List (Done HtlcAct HtlcDb Nat))
      (p : Pool HtlcAct HtlcAct.Reply HtlcActError HtlcDb Nat),
      (∀ i, (reqs i).regular = true) →
      Pool.Run execHtlc (htlcPool demoSha256 demoBridges reqs demoHtlcDb) l p →
      ∀ d ∈ l, ∀ id s, d.store.swap id = some s → s.status = .DestClaimed →
        ∃ s', p.store.swap id = some s' ∧
          (s'.status = .DestClaimed ∨ s'.status = .SourceUnlocked) := by
  intro h
  have hend : ((claimPlay [0, 0, 1, 2, 2, 3, 3, 2]).2.store.swap 1).map (·.status) = some .Failed := by
    decide +kernel
  have hseen : (claimPlay [0, 0, 1, 2, 2, 3, 3, 2]).1.any
      (fun d => (d.store.swap 1).any (·.status == .DestClaimed)) = true := by decide +kernel
  obtain ⟨d, hd, hany⟩ := List.any_eq_true.1 hseen
  obtain ⟨s, hs, hst⟩ := (Option.any_eq_true _ _).1 hany
  obtain ⟨s', hs', hst'⟩ := h claimReqs _ _ (fun i => by rcases i with _ | _ | _ | _ | i <;> rfl)
    (claimPlay_run _) d hd 1 s hs (eq_of_beq hst)
  rw [hs', Option.map_some, Option.some.injEq] at hend
  rw [hend] at hst'
  simp at hst'

end IntentX
