import IntentX.CrossRuns
import IntentX.HtlcOnce
import IntentX.Legs

/-!
# Bridge calls at most once

Both workers call a bridge first and record the outcome in a statement of its own, and after a crash
they find their work again by status alone.  So a call whose record is missing is made again.

The condition here is that the record follows: when `lock_funds` has been called, or `release_funds`
has succeeded, the process lives on and the database does not refuse the statements that record it.
Under it the status is the mark of the effect (`Once`): a leg or swap whose funds were locked is no
longer pending, and no statement ever makes it so again.
-/

namespace IntentX

open Lib

namespace CrossChain

/-! ## The cross-chain worker -/

/-- The legs `lock_funds` was called for, whatever it answered. -/
def lockedLegs (calls : List BridgeCall) : List Uuid :=
  calls.filterMap fun
    | .lock id _ => some id
    | .release _ _ => none

/-- The legs whose `release_funds` succeeded, call by call. -/
def releasedLegs (calls : List BridgeCall) : List Uuid :=
  calls.filterMap fun
    | .release id (.ok _) => some id
    | _ => none

/-- The process lives on, and the database does not refuse its next statement. -/
def NextTakesEffect : List Moment → Prop
  | [] => False
  | n :: _ => n.turn.fate ≠ .refused

instance : (ns : List Moment) → Decidable (NextTakesEffect ns)
  | [] => isFalse id
  | n :: _ => inferInstanceAs (Decidable (n.turn.fate ≠ .refused))

/-- A lock, and a release that succeeds, is recorded. -/
def CallsRecorded : CrossAct → List Moment → CrossDb → Prop
  | .lockFunds .., _ :: rest, _ => NextTakesEffect rest
  | .releaseFunds _ params msg, n :: rest, _ =>
    (∃ tx, n.turn.release params msg = .ok tx) → NextTakesEffect rest
  | _, _, _ => True

instance : (o : CrossAct) → (ns : List Moment) → (db : CrossDb) → Decidable (CallsRecorded o ns db)
  | .sql _, _, _ | .now, _, _ | .verifyLock .., _, _ => isTrue trivial
  | .lockFunds .., [], _ | .releaseFunds .., [], _ => isTrue trivial
  | .lockFunds .., _ :: rest, _ => inferInstanceAs (Decidable (NextTakesEffect rest))
  | .releaseFunds _ params msg, n :: rest, _ =>
    inferInstanceAs (Decidable ((∃ tx, n.turn.release params msg = .ok tx) → NextTakesEffect rest))

/-- A leg is there, and it is no longer pending. -/
def Started (db : CrossDb) (id : Uuid) : Prop := ∃ l ∈ db.legs.rows, l.id = id ∧ l.status ≠ .Pending

/-- No leg was locked or released twice. -/
structure Single (db : CrossDb) : Prop where
  locks : Once (lockedLegs db.calls) (Started db)
  releases : Once (releasedLegs db.calls) (Started db)

def Present (db : CrossDb) (id : Uuid) : Prop := ∃ l ∈ db.legs.rows, l.id = id

section Single

variable {db db₁ b db' : CrossDb} {id : Uuid} {st : LegStatus} {c : BridgeCall}

theorem Waits.present (h : Waits db db') (k : Uuid) (hk : Present db k) : Present db' k := by
  obtain ⟨l, hl, hid⟩ := hk
  obtain ⟨l', hl', ha⟩ := h.keeps l hl
  exact ⟨l', hl', ha.id.trans hid⟩

theorem Waits.started (h : Waits db db') (k : Uuid) (hk : Started db k) : Started db' k := by
  obtain ⟨l, hl, hid, hst⟩ := hk
  obtain ⟨l', hl', ha⟩ := h.keeps l hl
  refine ⟨l', hl', ha.id.trans hid, ?_⟩
  rw [ha.status]
  exact hst

theorem SetTo.present (h : SetTo id st db db') (k : Uuid) (hk : Present db k) : Present db' k := by
  obtain ⟨l, hl, hid⟩ := hk
  obtain ⟨l', hl', hb⟩ := h.becomes l hl
  exact ⟨l', hl', hb.id.trans hid⟩

theorem SetTo.started (h : SetTo id st db db') (hst : st ≠ .Pending) (k : Uuid) (hk : Started db k) :
    Started db' k := by
  obtain ⟨l, hl, hid, hl0⟩ := hk
  obtain ⟨l', hl', hb⟩ := h.becomes l hl
  refine ⟨l', hl', hb.id.trans hid, ?_⟩
  rw [hb.status]
  split
  · exact hst
  · exact hl0

/-- The record of an effect is its mark. -/
theorem SetTo.starts (h : SetTo id st db db') (hst : st ≠ .Pending) (hrow : Present db id) :
    Started db' id := by
  obtain ⟨l, hl, hid⟩ := hrow
  obtain ⟨l', hl', hb⟩ := h.becomes l hl
  refine ⟨l', hl', hb.id.trans hid, ?_⟩
  rw [hb.status, if_pos hid]
  exact hst

theorem Called.present (h : Called c db db') (k : Uuid) (hk : Present db k) : Present db' k := by
  obtain ⟨b, hw, hlegs⟩ := h.waits
  unfold Present
  rw [hlegs]
  exact hw.present k hk

theorem Called.started (h : Called c db db') (k : Uuid) (hk : Started db k) : Started db' k := by
  obtain ⟨b, hw, hlegs⟩ := h.waits
  unfold Started
  rw [hlegs]
  exact hw.started k hk

theorem Single.waits (hs : Single db) (h : Waits db db') : Single db' := by
  refine ⟨?_, ?_⟩ <;> rw [h.calls]
  · exact hs.locks.mono h.started
  · exact hs.releases.mono h.started

theorem Single.setTo (hs : Single db) (h : SetTo id st db db') (hst : st ≠ .Pending) : Single db' := by
  refine ⟨?_, ?_⟩ <;> rw [h.calls]
  · exact hs.locks.mono (h.started hst)
  · exact hs.releases.mono (h.started hst)

theorem single_quiet {o : CrossAct} (ho : Quiet o) (m : Moment) (hs : Single db) :
    Single (execCross m o db).2 := by
  rcases exec_quiet m ho db with hw | ⟨id, st, b, hst, hw, hset⟩
  · exact hs.waits hw
  · exact (hs.waits hw).setTo hset hst

/-- A lock with its record. -/
theorem single_locked {a : Except BridgeError LockReceipt} (hs : Single db)
    (hnot : id ∉ lockedLegs db.calls) (hrow : Present db id) (hc : Called (.lock id a) db db₁)
    (hw : Waits db₁ b) (hset : SetTo id st b db') (hst : st ≠ .Pending) : Single db' := by
  have hstarted : ∀ k, Started db k → Started db' k := fun k hk =>
    hset.started hst k (hw.started k (hc.started k hk))
  have hmark : Started db' id := hset.starts hst (hw.present id (hc.present id hrow))
  have hcalls : db'.calls = .lock id a :: db.calls := by rw [hset.calls, hw.calls, hc.calls]
  refine ⟨?_, ?_⟩ <;> rw [hcalls]
  · exact (hs.locks.mono hstarted).add hnot hmark
  · exact hs.releases.mono hstarted

/-- A release that succeeded, with its record. -/
theorem single_released {tx : String} (hs : Single db) (hnot : id ∉ releasedLegs db.calls)
    (hrow : Present db id) (hc : Called (.release id (.ok tx)) db db₁) (hw : Waits db₁ b)
    (hset : SetTo id st b db') (hst : st ≠ .Pending) : Single db' := by
  have hstarted : ∀ k, Started db k → Started db' k := fun k hk =>
    hset.started hst k (hw.started k (hc.started k hk))
  have hmark : Started db' id := hset.starts hst (hw.present id (hc.present id hrow))
  have hcalls : db'.calls = .release id (.ok tx) :: db.calls := by rw [hset.calls, hw.calls, hc.calls]
  refine ⟨?_, ?_⟩ <;> rw [hcalls]
  · exact hs.locks.mono hstarted
  · exact (hs.releases.mono hstarted).add hnot hmark

/-- A release that failed needs no record. -/
theorem single_not_released {e : BridgeError} (hs : Single db)
    (hc : Called (.release id (.error e)) db db') : Single db' := by
  refine ⟨?_, ?_⟩ <;> rw [hc.calls]
  · exact hs.locks.mono hc.started
  · exact hs.releases.mono hc.started

end Single

/-! ### The loops -/

/-- Legs of a query whose call is still to be made: they are there, each once, and not `done` yet. -/
structure ToDo (done : List BridgeCall → List Uuid) (ls : List Leg) (db : CrossDb) : Prop where
  single : Single db
  distinct : (ls.map fun l => l.id).Nodup
  undone : ∀ l ∈ ls, l.id ∉ done db.calls ∧ Present db l.id

section ToDo

variable {done : List BridgeCall → List Uuid} {db db' : CrossDb} {ls : List Leg} {leg : Leg}

/-- At most the first leg has been done. -/
theorem ToDo.next (h : ToDo done (leg :: ls) db) (hs : Single db')
    (hdone : ∀ k ∈ done db'.calls, k = leg.id ∨ k ∈ done db.calls)
    (hpresent : ∀ k, Present db k → Present db' k) : ToDo done ls db' := by
  obtain ⟨hleg, hdistinct⟩ := List.nodup_cons.1 h.distinct
  refine ⟨hs, hdistinct, fun l hl => ?_⟩
  obtain ⟨hnot, hp⟩ := h.undone l (List.mem_cons_of_mem _ hl)
  refine ⟨fun hmem => ?_, hpresent _ hp⟩
  rcases hdone _ hmem with heq | hmem
  · exact hleg (List.mem_map.2 ⟨l, hl, heq⟩)
  · exact hnot hmem

theorem ToDo.waits (h : ToDo done ls db) (hw : Waits db db') : ToDo done ls db' := by
  refine ⟨h.single.waits hw, h.distinct, fun l hl => ?_⟩
  rw [hw.calls]
  exact ⟨(h.undone l hl).1, hw.present _ (h.undone l hl).2⟩

theorem ToDo.setTo {id : Uuid} {st : LegStatus} (h : ToDo done ls db) (hset : SetTo id st db db')
    (hst : st ≠ .Pending) : ToDo done ls db' := by
  refine ⟨h.single.setTo hset hst, h.distinct, fun l hl => ?_⟩
  rw [hset.calls]
  exact ⟨(h.undone l hl).1, hset.present _ (h.undone l hl).2⟩

theorem ToDo.skip (h : ToDo done (leg :: ls) db) : ToDo done ls db :=
  h.next h.single (fun _ => .inr) fun _ => id

/-- The legs of a query, none of which has been started. -/
theorem toDo_select {scan : Scan} {p : Leg → Bool} {key : Leg → Int} (hs : Single db)
    (hp : ∀ l, p l = true → l.status = .Pending) (hdone : Once (done db.calls) (Started db)) :
    ToDo done (db.select scan p key) db := by
  refine ⟨hs, select_nodup db scan p key, fun l hl => ?_⟩
  obtain ⟨hrow, hpl⟩ := mem_select hl
  refine ⟨fun hmem => ?_, l, hrow, rfl⟩
  obtain ⟨l', hl', hid, hst⟩ := hdone.2 _ hmem
  rw [db.eq_of_id hl' hrow hid] at hst
  exact hst (hp l hpl)

end ToDo

section Worker

variable {bridges : BridgeRegistry} {ns : List Moment} {s : CrossDb}

/-- The record of a call: the process is alive, and the statement takes effect. -/
theorem lasts_record {id : Uuid} {st : LegStatus} {txHash error : Option String} {K : CrossDb → Prop}
    (hnext : NextTakesEffect ns) (hset : ∀ b s', Waits s b → SetTo id st b s' → K s') :
    Prog.Lasts execCross CallsRecorded Single (fun _ s' => K s')
      (updateLegStatus id st txHash error).run ns s := by
  refine lasts_updateLegStatus (fun hnil => ?_) (fun n ns' b s' r _ _ hw hs _ => hset b s' hw hs)
    fun n ns' e s' hns _ hf _ => ?_
  · rw [hnil] at hnext
    cases hnext
  · rw [hns] at hnext
    exact absurd hf hnext

theorem lasts_lockOne (leg : Leg) (ls : List Leg) (hs : ToDo lockedLegs (leg :: ls) s) :
    Prog.Lasts execCross CallsRecorded Single (fun _ s' => ToDo lockedLegs ls s') (lockOne bridges leg)
      ns s := by
  have hdone : ∀ {r s₁ s₂ b s'} {st : LegStatus}, Waits s s₁ → Called (.lock leg.id r) s₁ s₂ →
      st ≠ .Pending → Waits s₂ b → SetTo leg.id st b s' → ToDo lockedLegs ls s' := by
    intro r s₁ s₂ b s' st hw hc hst hw' hset
    have hs₁ := hs.waits hw
    obtain ⟨hnot, hrow⟩ := hs₁.undone leg List.mem_cons_self
    refine hs₁.next (single_locked hs₁.single hnot hrow hc hw' hset hst) (fun k hk => ?_)
      fun k hk => hset.present k (hw'.present k (hc.present k hk))
    rw [hset.calls, hw'.calls, hc.calls] at hk
    exact List.mem_cons.1 hk
  refine lasts_locking (fun s' hw => (hs.waits hw).single) (fun s' hw => (hs.waits hw).skip) ?_ ?_
  · intro n ns' s₁ s₂ params receipt hw hC hc
    exact lasts_record hC fun b s' => hdone hw hc nofun
  · intro n ns' s₁ s₂ params e text hw hC hc
    exact lasts_record hC fun b s' => hdone hw hc nofun

theorem lasts_releaseOne (leg : Leg) (ls : List Leg) (hs : ToDo releasedLegs (leg :: ls) s) :
    Prog.Lasts execCross CallsRecorded Single (fun _ s' => ToDo releasedLegs ls s')
      (releaseOne bridges leg) ns s := by
  refine lasts_releasing (fun s' hw => (hs.waits hw).single) (fun s' hw => (hs.waits hw).skip) ?_ ?_
  · intro n ns' s₁ s₂ params msg tx hw hC hrel hc
    have hs₁ := hs.waits hw
    refine lasts_record (hC ⟨tx, hrel⟩) fun b s' hw' hset => ?_
    obtain ⟨hnot, hrow⟩ := hs₁.undone leg List.mem_cons_self
    refine hs₁.next (single_released hs₁.single hnot hrow hc hw' hset nofun) (fun k hk => ?_)
      fun k hk => hset.present k (hw'.present k (hc.present k hk))
    rw [hset.calls, hw'.calls, hc.calls] at hk
    exact List.mem_cons.1 hk
  · intro n ns' s₁ s₂ params msg e text hw hC hrel _ hc
    have hs₁ := hs.waits hw
    have hs₂ : ToDo releasedLegs ls s₂ := by
      refine hs₁.next (single_not_released hs₁.single hc) (fun k hk => .inr ?_) hc.present
      rw [hc.calls] at hk
      exact hk
    refine lasts_updateLegStatus (fun _ => hs₂.single) ?_ ?_
    · exact fun n ns' b s' r _ _ hw' hset _ => (hs₂.waits hw').setTo hset nofun
    · exact fun n ns' e s' _ _ _ hw' => hs₂.waits hw'

/-- The worker locks and releases each leg at most once, wherever it crashes. -/
theorem lasts_crossChainWorker (rounds : Nat) (hs : Single s) :
    Prog.Lasts execCross CallsRecorded Single (fun _ s' => Single s') (crossChainWorker bridges rounds)
      ns s := by
  have hquiet : ∀ {α : Type} {p : CrossProg α} {ns s}, p.Issues Quiet → Single s →
      Prog.Lasts execCross CallsRecorded Single (fun _ s' => Single s') p ns s := fun hp hs =>
    Prog.lasts_of_issues (fun o ho n _ _ _ hs => single_quiet ho n hs) hp hs
  have hidle : ∀ {α : Type} {p : CrossProg α} {ns s}, p.Issues Idle → Single s →
      Prog.Lasts execCross CallsRecorded Single (fun _ s' => Single s') p ns s := fun hp hs =>
    hquiet (hp.mono fun _ => Idle.quiet) hs
  have hverify : (verifyEscrowed bridges).Issues Quiet := verifyEscrowed_issues.mono fun _ => Plain.quiet
  have htimeouts : processTimeouts.Issues Quiet := processTimeouts_issues.mono fun _ => Plain.quiet
  have hgauge : updateGauge.Issues Idle := updateGauge_issues trivial (fun _ => trivial) trivial
  induction rounds generalizing ns s with
  | zero => exact hs
  | succ k ih =>
    have hlock : Prog.Lasts execCross CallsRecorded Single (fun _ s' => Single s')
        (lockPendingSources bridges) ns s := by
      refine lasts_legPhase (lasts_findPendingSourceLegs hs (fun scan s' hw => ?_) fun s' => hs.waits)
        (fun leg ls ns s => lasts_lockOne leg ls) fun s' hs' => hs'.single
      refine toDo_select (hs.waits hw) (fun l hl => ?_) (hs.waits hw).locks
      exact eq_of_beq (Bool.and_eq_true_iff.1 hl).2
    refine Prog.lasts_bind (hlock.mono fun _ s₁ hs₁ ns₁ => ?_)
    refine Prog.lasts_bind ((hquiet hverify hs₁).mono fun _ s₂ hs₂ ns₂ => ?_)
    have hrelease : Prog.Lasts execCross CallsRecorded Single (fun _ s' => Single s')
        (releaseDestinations bridges) ns₂ s₂ := by
      refine lasts_legPhase
        (lasts_findReadyDestinationLegs hs₂ (fun scan s' hw => ?_) fun s' => hs₂.waits)
        (fun leg ls ns s => lasts_releaseOne leg ls) fun s' hs' => hs'.single
      refine toDo_select (hs₂.waits hw) (fun l hl => ?_) (hs₂.waits hw).releases
      exact eq_of_beq (Bool.and_eq_true_iff.1 (Bool.and_eq_true_iff.1 hl).1).2
    refine Prog.lasts_bind (hrelease.mono fun _ s₃ hs₃ ns₃ => ?_)
    refine Prog.lasts_bind ((hquiet htimeouts hs₃).mono fun _ s₄ hs₄ ns₄ => ?_)
    refine Prog.lasts_bind ((hidle finalizeCompleted_issues hs₄).mono fun _ s₅ hs₅ ns₅ => ?_)
    exact Prog.lasts_bind ((hidle hgauge hs₅).mono fun _ s₆ hs₆ ns₆ => ih hs₆)

end Worker

end CrossChain

/-! ## Both workers -/

section Both

open CrossChain

variable {sha256 : Secret → SecretHash} {bridges : BridgeRegistry}

/-- **Calls whose records take effect are made at most once.**  Both workers, from stores without
calls, through any lives, each of which may crash at any act: when the record of every lock and of
every successful release of destination funds takes effect, no leg and no swap is locked twice, and
none has its destination funds released twice. -/
theorem bridge_calls_at_most_once (db : CrossDb) (w : Watched) (hdb : db.calls = [])
    (hw : w.locks = [] ∧ w.db.effects = []) (legLives : List (Nat × List Moment))
    (swapLives : List (Nat × List HtlcMoment))
    (hlegs : Prog.AlongLives execCross CallsRecorded (crossChainWorker bridges) legLives db)
    (hswaps : Prog.AlongLives execWatched HtlcCallsRecorded (htlcWorker sha256 bridges) swapLives w) :
    (∀ id, (lockedLegs (Prog.lives execCross (crossChainWorker bridges) legLives db).calls).count id ≤ 1 ∧
      (releasedLegs (Prog.lives execCross (crossChainWorker bridges) legLives db).calls).count id ≤ 1) ∧
    ∀ id, (Prog.lives execWatched (htlcWorker sha256 bridges) swapLives w).locks.count id ≤ 1 ∧
      (destReleases (Prog.lives execWatched (htlcWorker sha256 bridges) swapLives w).db.effects).count id
        ≤ 1 := by
  have hstart : Single db := by
    refine ⟨?_, ?_⟩ <;> rw [hdb]
    · exact Once.nil
    · exact Once.nil
  have hstart' : HtlcSingle w := by
    refine ⟨?_, ?_⟩
    · rw [hw.1]
      exact Once.nil
    · rw [hw.2]
      exact Once.nil
  have hend := Prog.lives_keep (fun rounds _ _ hs => lasts_crossChainWorker rounds hs) hlegs hstart
  have hend' := Prog.lives_keep (fun rounds _ _ hs => lasts_htlcWorker rounds hs) hswaps hstart'
  exact ⟨fun id => ⟨hend.locks.count_le id, hend.releases.count_le id⟩,
    fun id => ⟨hend'.locks.count_le id, hend'.releases.count_le id⟩⟩

/-! ### Runs

One fill with its two legs, and one swap; every bridge call succeeds. -/

def demoSettlement : SettlementReq :=
  ⟨1, 2, "ethereum", "solana", "0xa", "0xb", "c", "d", none, none, 100⟩

/-- `n` acts of the cross-chain worker; the legs arrive before the first one. -/
def demoMoments (n : Nat) : List Moment :=
  ⟨[⟨.source, 10, demoSettlement, 0⟩, ⟨.dest, 11, demoSettlement, 0⟩], .inOrder, demoTurn .served 1⟩ ::
    List.replicate (n - 1) (.quiet (demoTurn .served 1))

/-- `n` acts of the HTLC worker; the swap arrives before the first one. -/
def demoHtlcMoments (n : Nat) : List HtlcMoment :=
  ⟨[.insertSwap (newSwap 1 (demoSha256 demoSecret) demoSwapParams 0), .setSecret 1 demoSecret.1],
    demoTurn .served 1⟩ :: List.replicate (n - 1) ⟨[], demoTurn .served 1⟩

def demoLegRun (lives : List (Nat × List Moment)) : CrossDb :=
  Prog.lives execCross (crossChainWorker demoBridges) lives (.start [(1, .Matched)] 0)

def demoSwapRun (lives : List (Nat × List HtlcMoment)) : Watched :=
  Prog.lives execWatched (htlcWorker demoSha256 demoBridges) lives ⟨demoHtlcDb, []⟩

/-- Each worker crashes once its lock is recorded, and its second life releases. -/
theorem demo_calls_at_most_once :
    (lockedLegs (demoLegRun [(1, demoMoments 4), (1, demoMoments 15), (1, demoMoments 9)]).calls = [10] ∧
      releasedLegs (demoLegRun [(1, demoMoments 4), (1, demoMoments 15), (1, demoMoments 9)]).calls = [11] ∧
      (demoSwapRun [(1, demoHtlcMoments 4), (1, demoHtlcMoments 15)]).locks = [1] ∧
      destReleases (demoSwapRun [(1, demoHtlcMoments 4), (1, demoHtlcMoments 15)]).db.effects = [1]) ∧
    (∀ id,
      (lockedLegs (demoLegRun [(1, demoMoments 4), (1, demoMoments 15), (1, demoMoments 9)]).calls).count id
        ≤ 1 ∧
      (releasedLegs (demoLegRun [(1, demoMoments 4), (1, demoMoments 15), (1, demoMoments 9)]).calls).count
        id ≤ 1) ∧
    ∀ id, (demoSwapRun [(1, demoHtlcMoments 4), (1, demoHtlcMoments 15)]).locks.count id ≤ 1 ∧
      (destReleases (demoSwapRun [(1, demoHtlcMoments 4), (1, demoHtlcMoments 15)]).db.effects).count id
        ≤ 1 :=
  ⟨by decide +kernel, bridge_calls_at_most_once (.start [(1, .Matched)] 0) ⟨demoHtlcDb, []⟩ rfl
    ⟨rfl, rfl⟩ _ _ (by decide +kernel) (by decide +kernel)⟩

/-- A life of `n` acts, the last of which the database refuses. -/
def demoRefused (n : Nat) : List Moment := demoMoments (n - 1) ++ [.quiet (demoTurn .refused 1)]

def demoHtlcRefused (n : Nat) : List HtlcMoment :=
  demoHtlcMoments (n - 1) ++ [⟨[], demoTurn .refused 1⟩]

/-- Each worker crashes after `lock_funds`; and in another run the record of its release is refused. -/
theorem unrecorded_calls_repeated :
    lockedLegs (demoLegRun [(1, demoMoments 3), (1, demoMoments 3)]).calls = [10, 10] ∧
      releasedLegs (demoLegRun [(1, demoRefused 13), (1, demoMoments 9)]).calls = [11, 11] ∧
      (demoSwapRun [(1, demoHtlcMoments 3), (1, demoHtlcMoments 3)]).locks = [1, 1] ∧
      destReleases (demoSwapRun [(1, demoHtlcRefused 11), (1, demoHtlcMoments 9)]).db.effects = [1, 1] := by
  decide +kernel

end Both

end IntentX
