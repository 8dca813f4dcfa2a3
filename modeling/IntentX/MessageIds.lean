import IntentX.Bridges
import IntentX.CrossRuns
import IntentX.HtlcRuns

/-!
# The ids that reach the bridges

`lock_funds` returns an id for its message, and `release_funds` parses the id it is given.  Between
the two stand the workers.  The cross-chain worker keeps the hash of the transaction and hands over
`msg_` and the hash; the HTLC worker hands over `htlc_secret_` or `htlc_unlock_` and the secret.

`crossChainWorker_ids` and `htlcWorker_ids` say that these are the only ids, and no adapter reads
any of them.
-/

namespace IntentX

open Lib

/-! ## The ids of the HTLC worker -/

/-- The id of a release. -/
def HtlcAct.messageId : HtlcAct → Option String
  | .releaseFunds _ _ _ msg => some msg
  | _ => none

/-- Every id that an act hands over satisfies `P`. -/
def HtlcIds (P : String → Prop) (o : HtlcAct) : Prop := ∀ msg, o.messageId = some msg → P msg

section Htlc

variable {P : String → Prop} {sha256 : Secret → SecretHash} {bridges : BridgeRegistry}

theorem still_ids {o : HtlcAct} (h : Still o) : HtlcIds P o := by
  intro msg hmsg
  cases o with
  | releaseFunds side id params m => cases h
  | _ => cases hmsg

theorem failSwap_ids (id : Uuid) (e : String) : Call.Issues (HtlcIds P) (failSwap id e) :=
  (failSwap_issues id e).mono fun _ => still_ids

theorem failAndSkip_ids (s : HtlcSwap) (e : String) : (failAndSkip s e).Issues (HtlcIds P) :=
  (failAndSkip_issues s e).mono fun _ => still_ids

theorem htlcSql_ids (o : HtlcStmt) : Call.Issues (HtlcIds P) (htlcSql o) :=
  Call.issues_op (still_ids (o := .sql o) trivial)

theorem lockSourceOne_ids (s : HtlcSwap) : (lockSourceOne bridges s).Issues (HtlcIds P) := by
  unfold lockSourceOne
  split
  · exact Prog.issues_bind (failSwap_ids _ _) fun _ => trivial
  · refine Prog.issues_bind (Prog.issues_ask fun _ h => nomatch h) fun r => ?_
    cases r with
    | error e => exact Prog.issues_bind (failSwap_ids _ _) fun _ => trivial
    | ok receipt =>
      refine Prog.issues_bind (Call.issues_bind (htlcSql_ids _) fun _ => Call.issues_failIf) fun r => ?_
      cases r <;> trivial

theorem claimOne_ids (hclaim : ∀ secret : Secret, P ("htlc_secret_" ++ toHex secret.1)) (s : HtlcSwap) :
    (claimOne sha256 bridges s).Issues (HtlcIds P) := by
  unfold claimOne
  split
  · trivial
  split
  · exact failAndSkip_ids _ _
  split
  · exact failAndSkip_ids _ _
  split
  · split
    · trivial
    · next secret _ _ _ _ _ _ _ _ =>
      have hask : HtlcIds P (.releaseFunds .dest s.id (claimParams s) ("htlc_secret_" ++ toHex secret.1)) := by
        rintro _ ⟨⟩
        exact hclaim secret
      refine Prog.issues_bind (Prog.issues_ask hask) fun r => ?_
      cases r with
      | error e => trivial
      | ok tx =>
        refine Prog.issues_bind ((recordDestClaim_issues _ _ _).mono fun _ => still_ids) fun r => ?_
        cases r <;> trivial
  · exact failAndSkip_ids _ _

theorem unlockOne_ids (hunlock : ∀ secret : Secret, P ("htlc_unlock_" ++ toHex secret.1)) (s : HtlcSwap) :
    (unlockOne sha256 bridges s).Issues (HtlcIds P) := by
  unfold unlockOne
  split
  · split
    · split
      · trivial
      · next secret _ _ _ _ _ _ _ =>
        have hask : HtlcIds P (.releaseFunds .source s.id (lockParams s) ("htlc_unlock_" ++ toHex secret.1)) := by
          rintro _ ⟨⟩
          exact hunlock secret
        refine Prog.issues_bind (Prog.issues_ask hask) fun r => ?_
        cases r with
        | error e => trivial
        | ok tx =>
          refine Prog.issues_bind (Call.issues_bind (htlcSql_ids _) fun _ => Call.issues_failIf) fun r => ?_
          cases r <;> trivial
    · exact failAndSkip_ids _ _
  · trivial

/-- The HTLC worker hands over its two ids and no others. -/
theorem htlcWorker_ids (hclaim : ∀ secret : Secret, P ("htlc_secret_" ++ toHex secret.1))
    (hunlock : ∀ secret : Secret, P ("htlc_unlock_" ++ toHex secret.1)) (rounds : Nat) :
    (htlcWorker sha256 bridges rounds).Issues (HtlcIds P) := by
  induction rounds with
  | zero => trivial
  | succ n ih =>
    have hlocks : Call.Issues (HtlcIds P) findPendingLocks :=
      findPendingLocks_issues.mono fun _ => still_ids
    refine Prog.issues_bind (phase_issues hlocks lockSourceOne_ids) fun _ => ?_
    refine Prog.issues_bind (phaseMonitorDestLock_issues.mono fun _ => still_ids) fun _ => ?_
    refine Prog.issues_bind (phase_issues (htlcSql_ids _) (claimOne_ids hclaim)) fun _ => ?_
    refine Prog.issues_bind (phase_issues (htlcSql_ids _) (unlockOne_ids hunlock)) fun _ => ?_
    exact Prog.issues_bind (phaseRefundExpired_issues.mono fun _ => still_ids) fun _ => ih

end Htlc

/-! ## The ids of the cross-chain worker -/

namespace CrossChain

def CrossAct.messageId : CrossAct → Option String
  | .releaseFunds _ _ msg => some msg
  | _ => none

def CrossIds (P : String → Prop) (o : CrossAct) : Prop := ∀ msg, CrossAct.messageId o = some msg → P msg

section Cross

variable {P : String → Prop} {bridges : BridgeRegistry}

theorem quiet_ids {o : CrossAct} (h : Quiet o) : CrossIds P o := by
  intro msg hmsg
  cases o with
  | releaseFunds id params m => cases h
  | _ => cases hmsg

/-- The cross-chain worker hands over ids made of transaction hashes and no others. -/
theorem crossChainWorker_ids (hrelease : ∀ source, P (releaseMsgId source)) (rounds : Nat) :
    (crossChainWorker bridges rounds).Issues (CrossIds P) := by
  induction rounds with
  | zero => trivial
  | succ n ih =>
    refine Prog.issues_bind (lockPendingSources_issues (fun _ h => quiet_ids h.quiet)
      fun _ _ => nofun) fun _ => ?_
    refine Prog.issues_bind (verifyEscrowed_issues.mono fun _ h => quiet_ids h.quiet) fun _ => ?_
    refine Prog.issues_bind (releaseDestinations_issues (fun _ h => quiet_ids h.quiet)
      fun _ _ source => ?_) fun _ => ?_
    · rintro _ ⟨⟩
      exact hrelease source
    refine Prog.issues_bind (processTimeouts_issues.mono fun _ h => quiet_ids h.quiet) fun _ => ?_
    refine Prog.issues_bind (finalizeCompleted_issues.mono fun _ h => quiet_ids h.quiet) fun _ => ?_
    exact Prog.issues_bind (updateGauge_issues (quiet_ids trivial) (fun _ => quiet_ids trivial)
      (quiet_ids trivial)) fun _ => ih

end Cross

end CrossChain

/-! ## What the adapters make of them -/

section Usable

variable {b : BridgeKind} {node : Node} {params : BridgeTransferParams} {receipt : LockReceipt}

theorem parse_releaseMsgId (b : BridgeKind) (source : Leg) :
    b.parseMessageId (CrossChain.releaseMsgId source) = none := by
  have hid : (CrossChain.releaseMsgId source).toList =
      'm' :: ("sg_".toList ++ (source.txHash.getD "").toList) := by
    simp [CrossChain.releaseMsgId]
  exact b.parseMessageId_foreign hid (by decide) (by decide) (by decide) (by decide)

theorem parse_claimId (b : BridgeKind) (secret : Secret) :
    b.parseMessageId ("htlc_secret_" ++ toHex secret.1) = none := by
  have hid : ("htlc_secret_" ++ toHex secret.1).toList =
      'h' :: ("tlc_secret_".toList ++ (toHex secret.1).toList) := by
    simp
  exact b.parseMessageId_foreign hid (by decide) (by decide) (by decide) (by decide)

theorem parse_unlockId (b : BridgeKind) (secret : Secret) :
    b.parseMessageId ("htlc_unlock_" ++ toHex secret.1) = none := by
  have hid : ("htlc_unlock_" ++ toHex secret.1).toList =
      'h' :: ("tlc_unlock_".toList ++ (toHex secret.1).toList) := by
    simp
  exact b.parseMessageId_foreign hid (by decide) (by decide) (by decide) (by decide)

/-- The message in the receipt is the one read off the transaction. -/
theorem BridgeKind.lockFunds_ok (h : b.lockFunds node params = .ok receipt) :
    ∃ m, b.lockMessage node params = .ok (receipt.txHash, m) ∧ receipt.messageId = b.messageId m := by
  unfold BridgeKind.lockFunds at h
  rcases hm : b.lockMessage node params with e | ⟨txHash, m⟩
  · rw [hm] at h
    cases h
  · rw [hm] at h
    cases h
    exact ⟨m, rfl, rfl⟩

/-- **No worker hands a bridge an id it can use.**  Whatever message `lock_funds` put into its
receipt, the adapter reads it from none of the ids that the workers pass to `release_funds`: not from
the one made of the hash recorded for the leg, and not from any other. -/
theorem worker_ids_unusable (hlock : b.lockFunds node params = .ok receipt)
    (sha256 : Secret → SecretHash) (bridges : BridgeRegistry) (rounds : Nat) :
    ∃ m, b.lockMessage node params = .ok (receipt.txHash, m) ∧ receipt.messageId = b.messageId m ∧
      (∀ source : Leg, source.txHash = some receipt.txHash →
        b.parseMessageId (CrossChain.releaseMsgId source) ≠ some m) ∧
      (CrossChain.crossChainWorker bridges rounds).Issues
        (CrossChain.CrossIds fun id => b.parseMessageId id ≠ some m) ∧
      (htlcWorker sha256 bridges rounds).Issues (HtlcIds fun id => b.parseMessageId id ≠ some m) := by
  obtain ⟨m, hm, hid⟩ := BridgeKind.lockFunds_ok hlock
  have hnone : ∀ {id : String}, b.parseMessageId id = none → b.parseMessageId id ≠ some m := by
    intro id h
    rw [h]
    exact nofun
  refine ⟨m, hm, hid, fun source _ => hnone (parse_releaseMsgId b source), ?_, ?_⟩
  · exact CrossChain.crossChainWorker_ids (fun source => hnone (parse_releaseMsgId b source)) rounds
  · exact htlcWorker_ids (fun secret => hnone (parse_claimId b secret))
      (fun secret => hnone (parse_unlockId b secret)) rounds

end Usable

/-! ## A lock and its release -/

/-- A node that mines a transfer at once, with the event of message 42. -/
def busyNode : Node where
  hasRpc _ := true
  sent := .ok ⟨some (.string "0x000000000000000000000000000000000000000000000000000000000000beef"), none⟩
  receipt _ := .ok ⟨some (.object [("status", .string "0x1"), ("logs", .array [.object [
    ("topics", .array [.string Wormhole.logMessagePublishedTopic, .string "0x3ee1"]),
    ("data", .string "0x000000000000000000000000000000000000000000000000000000000000002a")]])]), none⟩
  random := 0

def exampleReq : CrossChain.SettlementReq :=
  ⟨1, 2, "ethereum", "solana", "0xa", "0xb", "c", "d", none, none, 100⟩

def exampleParams : BridgeTransferParams := ⟨"ethereum", "solana", "", 100, "0xa", "d"⟩

def exampleReceipt : LockReceipt :=
  ⟨"0x000000000000000000000000000000000000000000000000000000000000beef", "2/3ee1/42", 1020⟩

theorem worker_ids_unusable_wormhole : ∃ m, BridgeKind.wormhole.lockMessage busyNode exampleParams =
    .ok (exampleReceipt.txHash, m) ∧ exampleReceipt.messageId = BridgeKind.wormhole.messageId m ∧
      (∀ source : Leg, source.txHash = some exampleReceipt.txHash →
        BridgeKind.wormhole.parseMessageId (CrossChain.releaseMsgId source) ≠ some m) ∧
      (CrossChain.crossChainWorker [Wormhole.supportsRoute] 1).Issues
        (CrossChain.CrossIds fun id => BridgeKind.wormhole.parseMessageId id ≠ some m) ∧
      (htlcWorker id [Wormhole.supportsRoute] 1).Issues
        (HtlcIds fun id => BridgeKind.wormhole.parseMessageId id ≠ some m) :=
  worker_ids_unusable (by decide +kernel) id [Wormhole.supportsRoute] 1

/-- Every statement is served, and Wormhole is the bridge. -/
def wormholeTurn : Turn where
  elapse := 0
  fate := .served
  lock := BridgeKind.wormhole.lockFunds busyNode
  verify _ := .ok .Pending
  release _ := BridgeKind.wormhole.releaseFunds fun _ => .ok "0xfeed"

/-- The legs of a settlement arrive, and the worker does one round. -/
def wormholeRound : CrossChain.CrossDb :=
  (Prog.play CrossChain.execCross (CrossChain.crossChainWorker [Wormhole.supportsRoute] 1)
    (⟨[⟨.source, 10, exampleReq, 0⟩, ⟨.dest, 11, exampleReq, 0⟩], .inOrder, wormholeTurn⟩ ::
      List.replicate 16 ⟨[], .inOrder, wormholeTurn⟩)
    ⟨[(1, .Matched)], .empty, 0, []⟩).2

/-- The id of the receipt reads back, the id that is passed does not, and the release fails for it. -/
theorem wormhole_release_rejected :
    BridgeKind.wormhole.lockFunds busyNode exampleParams = .ok exampleReceipt ∧
      BridgeKind.wormhole.parseMessageId exampleReceipt.messageId = some (⟨2, "3ee1", 42⟩ : Wormhole.WormholeMessage) ∧
      (wormholeRound.leg 10).map (fun l => (l.status, l.txHash)) =
        some (.Escrowed, some exampleReceipt.txHash) ∧
      (wormholeRound.leg 10).bind (fun l =>
        BridgeKind.wormhole.parseMessageId (CrossChain.releaseMsgId l)) = none ∧
      (wormholeRound.leg 11).map (fun l => (l.status, l.error)) =
        some (.Failed, some "Release failed: Invalid message ID") := by
  decide +kernel

end IntentX
