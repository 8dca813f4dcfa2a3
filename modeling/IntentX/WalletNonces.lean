import IntentX.Lib.Rely
import IntentX.Wallet

/-!
# The nonces of payments from one wallet

`send_settlement_tx` takes the nonce from the node's transaction count, which stands still until a
transaction of the wallet is mined.  Any number of calls for one wallet run side by side, request by
request.

A call asks for the count once, and all its attempts send the same transaction.  So where no two
calls are answered the same count, the transactions that the node accepts carry distinct nonces
(`nonces_distinct`).  Two payments that see the same count are both accepted under one nonce, and the
second replaces the first (`nonces_not_distinct`).
-/

namespace IntentX.OnChain

open Lib

variable {ι : Type}

/-! ## Calls for one wallet -/

abbrev WalletDone (ι : Type) := Done WalletOp WalletWorld ι

abbrev WalletTrace (ι : Type) := Trace WalletOp WalletWorld ι

abbrev WalletPool (ι : Type) := Pool WalletOp WalletOp.Reply SqlError WalletWorld ι

/-- The calls, one for each payment. -/
def walletPool (c : Crypto) (chainId : UInt64) (wallet : Wallet) (payments : ι → Payment)
    (w : WalletWorld) : WalletPool ι where
  store := w
  task i :=
    (sendSettlementTx c chainId { payments i with fromWallet := wallet }).run >>= fun _ => .ret ()

/-- The transaction count that the node answers. -/
def WalletOp.counted (w : WalletWorld) : WalletOp → Option Nat
  | .rpc (.getTransactionCount address) =>
    if w.node.countError = none then some (w.node.mined address) else none
  | _ => none

/-- No two requests are answered the same count. -/
def FreshCounts (l : List (WalletDone ι)) : Prop := (l.filterMap fun d => d.op.counted d.store).Nodup

instance (l : List (WalletDone ι)) : Decidable (FreshCounts l) := inferInstanceAs (Decidable (List.Nodup _))

/-- The transactions that the node has accepted since there were `k` of them. -/
def Node.acceptedSince (node : Node) (k : Nat) : List SignedTx := node.accepted.drop k

def DistinctNonces (txs : List SignedTx) : Prop := (txs.map fun s => s.tx.nonce).Nodup

instance (txs : List SignedTx) : Decidable (DistinctNonces txs) := inferInstanceAs (Decidable (List.Nodup _))

/-! ## The log of a run -/

/-- The task was answered a count that reads as `n`. -/
def Quoted (l : List (WalletDone ι)) (i : ι) (n : UInt64) : Prop :=
  ∃ d ∈ l, d.task = i ∧ ∃ m, d.op.counted d.store = some m ∧ m < 2 ^ 64 ∧ UInt64.ofNat m = n

/-- The task has sent nothing but transactions of `S`. -/
def OnlySends (l : List (WalletDone ι)) (i : ι) (S : SignedTx → Prop) : Prop :=
  ∀ d ∈ l, d.task = i → ∀ tx, d.op.sends = some tx → S tx

section Log

variable {l l' : List (WalletDone ι)} {i j : ι} {n : UInt64} {d : WalletDone ι} {S : SignedTx → Prop}
  {x y : WalletTrace ι}

theorem trimHexPrefix_of_notMem {s : List Char} (h : 'x' ∉ s) : trimHexPrefix s = s := by
  unfold trimHexPrefix
  split
  · simp at h
  · rfl

theorem trimHexPrefix_toDigits (n : Nat) :
    trimHexPrefix (String.ofList ('0' :: 'x' :: Nat.toDigits 16 n)).toList = Nat.toDigits 16 n := by
  rw [String.toList_ofList, trimHexPrefix]
  exact trimHexPrefix_of_notMem (Text.notMem_toDigits_hex (by decide))

theorem Quoted.mono (h : Quoted l i n) (hl : l <:+ l') : Quoted l' i n := by
  obtain ⟨d, hd, hi⟩ := h
  exact ⟨d, hl.subset hd, hi⟩

theorem OnlySends.cons (h : OnlySends l i S) (hd : d.task = i → ∀ tx, d.op.sends = some tx → S tx) :
    OnlySends (d :: l) i S := by
  intro e he
  rcases List.mem_cons.1 he with rfl | he
  · exact hd
  · exact h e he

theorem OnlySends.idle (h : OnlySends x.1 i S) (hidle : x.Idle i y) : OnlySends y.1 i S := by
  obtain ⟨m, hm, hother⟩ := hidle
  intro d hd hi
  rw [hm, List.mem_append] at hd
  rcases hd with hd | hd
  · exact absurd hi (hother d hd)
  · exact h d hd hi

/-- Two tasks are never answered the same count. -/
theorem Quoted.task_eq (hfresh : FreshCounts l) (hi : Quoted l i n) (hj : Quoted l j n) : i = j := by
  obtain ⟨d, hd, rfl, a, ha, hlta, hna⟩ := hi
  obtain ⟨e, he, rfl, b, hb, hltb, hnb⟩ := hj
  have hab : a = b := by
    have hnat := congrArg UInt64.toNat (hna.trans hnb.symm)
    rwa [UInt64.toNat_ofNat_of_lt' hlta, UInt64.toNat_ofNat_of_lt' hltb] at hnat
  have hpair := List.pairwise_filterMap.1 hfresh
  have hsame := List.Pairwise.forall_of_forall_of_flip
    (R := fun d e : WalletDone ι =>
      ∀ m, d.op.counted d.store = some m → e.op.counted e.store = some m → d.task = e.task)
    (fun _ _ _ _ _ => rfl)
    (hpair.imp fun h m hm hm' => absurd rfl (h m hm m hm'))
    (hpair.imp fun h m hm hm' => absurd rfl (h m hm' m hm))
  exact hsame hd he a ha (hab ▸ hb)

end Log

/-! ## The protocol -/

/-- What the log says about the accepted transactions. -/
structure NonceInv (k : Nat) (x : WalletTrace ι) : Prop where
  fresh : FreshCounts x.1
  grown : k ≤ x.2.node.accepted.length
  sent : ∀ tx ∈ x.2.node.acceptedSince k, ∃ d ∈ x.1, d.op.sends = some tx
  quoted : ∀ d ∈ x.1, ∀ tx, d.op.sends = some tx →
    Quoted x.1 d.task tx.tx.nonce ∧ OnlySends x.1 d.task (· = tx)
  distinct : DistinctNonces (x.2.node.acceptedSince k)

/-- A call sends one transaction, under the nonce that it was given. -/
def WalletOp.May (i : ι) (x : WalletTrace ι) (o : WalletOp) : Prop :=
  ∀ tx, o.sends = some tx → Quoted x.1 i tx.tx.nonce ∧ OnlySends x.1 i (· = tx)

section Step

variable {k : Nat} {step : NodeStep} {o : WalletOp} {w : WalletWorld} {x : WalletTrace ι} {i : ι}

/-- What a step does to the accepted transactions. -/
theorem execWallet_accepted (step : NodeStep) (o : WalletOp) (w : WalletWorld) :
    (execWallet step o w).2.node.accepted = w.node.accepted ∨
    ∃ tx, o.sends = some tx ∧ tx ∉ w.node.accepted ∧
      (execWallet step o w).2.node.accepted = w.node.accepted ++ [tx] := by
  cases o with
  | rpc c =>
    cases c with
    | sendRawTransaction tx =>
      show (w.node.accept step.fate tx).accepted = _ ∨ _
      by_cases h : step.fate.accepts ∧ tx ∉ w.node.accepted
      · refine .inr ⟨tx, rfl, h.2, ?_⟩
        show (w.node.accept step.fate tx).accepted = _
        rw [Node.accept, if_pos h]
      · rw [Node.accept, if_neg h]
        exact .inl rfl
    | _ => exact .inl rfl
  | insertTransaction tx =>
    refine .inl ?_
    show (execWalletOp step (.insertTransaction tx) w).2.node.accepted = _
    simp only [execWalletOp]
    cases w.records.insert tx with
    | none => rfl
    | some records => rfl
  | updateTxSubmitted id txHash gasPrice now => exact .inl rfl
  | updateTxFailed id error => exact .inl rfl

variable (step) in
/-- The calls of the grown log still have their nonces and their one transaction. -/
theorem NonceInv.quoted_next (hinv : NonceInv k x) (hmay : o.May i x) :
    ∀ d ∈ (x.next execWallet i step o).1, ∀ tx, d.op.sends = some tx →
      Quoted (x.next execWallet i step o).1 d.task tx.tx.nonce ∧
        OnlySends (x.next execWallet i step o).1 d.task (· = tx) := by
  have hlog : x.1 <:+ (x.next execWallet i step o).1 := List.suffix_cons _ _
  intro d hd tx htx
  rcases List.mem_cons.1 hd with rfl | hd
  · refine ⟨(hmay tx htx).1.mono hlog, (hmay tx htx).2.cons fun _ tx' htx' => ?_⟩
    exact Option.some.inj (htx'.symm.trans htx)
  · obtain ⟨hq, honly⟩ := hinv.quoted d hd tx htx
    refine ⟨hq.mono hlog, honly.cons fun hi tx' htx' => ?_⟩
    exact ((hmay tx' htx').2 d hd hi.symm tx htx).symm

/-- No accepted transaction has the nonce of a new one: it would be of the same task, so the same
one. -/
theorem NonceInv.nonce_ne {tx tx' : SignedTx} (hinv : NonceInv k x) (hmay : o.May i x)
    (htx : o.sends = some tx) (hnew : tx ∉ x.2.node.accepted) (hmem : tx' ∈ x.2.node.acceptedSince k) :
    tx'.tx.nonce ≠ tx.tx.nonce := by
  intro hnonce
  obtain ⟨d, hd, hsend⟩ := hinv.sent tx' hmem
  have hq := (hinv.quoted d hd tx' hsend).1
  rw [hnonce] at hq
  have htask := hq.task_eq hinv.fresh (hmay tx htx).1
  have hsame : tx' = tx := (hmay tx htx).2 d hd htask tx' hsend
  exact hnew (hsame ▸ List.mem_of_mem_drop hmem)

theorem NonceInv.next (hinv : NonceInv k x) (hmay : o.May i x)
    (hfresh : FreshCounts (⟨i, o, x.2⟩ :: x.1)) : NonceInv k (x.next execWallet i step o) := by
  have hlog : x.1 <:+ (x.next execWallet i step o).1 := List.suffix_cons _ _
  have hquoted := hinv.quoted_next step hmay
  rcases execWallet_accepted step o x.2 with hacc | ⟨tx, htx, hnew, hacc⟩
  · have hsince : (x.next execWallet i step o).2.node.acceptedSince k = x.2.node.acceptedSince k :=
      congrArg (List.drop k) hacc
    refine ⟨hfresh, hacc ▸ hinv.grown, ?_, hquoted, hsince ▸ hinv.distinct⟩
    rw [hsince]
    intro tx htx
    obtain ⟨d, hd, hsend⟩ := hinv.sent tx htx
    exact ⟨d, hlog.subset hd, hsend⟩
  · have hsince : (x.next execWallet i step o).2.node.acceptedSince k =
        x.2.node.acceptedSince k ++ [tx] := by
      show List.drop k (execWallet step o x.2).2.node.accepted = _
      rw [hacc, List.drop_append_of_le_length hinv.grown]
      rfl
    refine ⟨hfresh, ?_, ?_, hquoted, ?_⟩
    · show k ≤ (execWallet step o x.2).2.node.accepted.length
      rw [hacc, List.length_append]
      exact Nat.le_add_right_of_le hinv.grown
    · rw [hsince]
      intro tx' htx'
      rcases List.mem_append.1 htx' with htx' | htx'
      · obtain ⟨d, hd, hsend⟩ := hinv.sent tx' htx'
        exact ⟨d, hlog.subset hd, hsend⟩
      · rw [List.mem_singleton] at htx'
        exact ⟨_, List.mem_cons_self, htx'.symm ▸ htx⟩
    · unfold DistinctNonces
      rw [hsince, List.map_append, List.map_singleton]
      refine hinv.distinct.append (List.nodup_singleton _) ?_
      intro n hn hn'
      rw [List.mem_singleton] at hn'
      obtain ⟨tx', hmem, htx'⟩ := List.mem_map.1 hn
      exact hinv.nonce_ne hmay htx hnew hmem (htx'.trans hn')

end Step

/-- The log only grows. -/
def nonceProtocol (ι : Type) (k : Nat) : Protocol execWallet ι where
  inv := NonceInv k
  rely x y := x.1 <:+ y.1
  may := WalletOp.May
  given i x o := FreshCounts (⟨i, o, x.2⟩ :: x.1)
  refl _ := List.suffix_refl _
  trans := List.IsSuffix.trans
  step _ hinv hmay hfresh := ⟨hinv.next hmay hfresh, List.suffix_cons _ _⟩

/-! ## The calls follow it -/

/-- The operation sends no transaction. -/
def WalletOp.Quiet (o : WalletOp) : Prop := o.sends = none

section Follows

variable {k : Nat} {x : WalletTrace ι} {i : ι} {S : SignedTx → Prop} {α : Type}

/-- A program that sends nothing leaves the task with what it has sent. -/
theorem follows_quiet {p : Prog WalletOp WalletOp.Reply SqlError α} (hp : p.Issues WalletOp.Quiet)
    (honly : OnlySends x.1 i S) :
    (nonceProtocol ι k).Follows i (fun _ y => x.1 <:+ y.1 ∧ OnlySends y.1 i S) p x := by
  induction p generalizing x with
  | ret a => exact ⟨List.suffix_refl _, honly⟩
  | call o cont ih =>
    intro y hr hidle _ _
    have hquiet : ∀ tx, o.sends ≠ some tx := by
      intro tx htx
      rw [hp.1] at htx
      cases htx
    refine ⟨fun tx htx => absurd htx (hquiet tx), fun step => ?_⟩
    have honly' : OnlySends (y.next execWallet i step o).1 i S :=
      (honly.idle hidle).cons fun _ tx htx => absurd htx (hquiet tx)
    refine (ih _ (hp.2 _) honly').mono fun _ z hz => ⟨?_, hz.2⟩
    exact hr.trans ((List.suffix_cons _ _).trans hz.1)

/-- The nonce of a call is a count that it was answered. -/
theorem getNonce_follows (address : String) (honly : OnlySends x.1 i S) :
    (nonceProtocol ι k).Follows i
      (fun r y => OnlySends y.1 i S ∧ ∀ n, r = .ok n → Quoted y.1 i n) (getNonce address).run x := by
  unfold getNonce
  refine Protocol.follows_bind_run ?_
  intro y hr hidle _ _
  refine ⟨fun tx htx => (by cases htx), fun step => ?_⟩
  have honly' : OnlySends (y.next execWallet i step (.rpc (.getTransactionCount address))).1 i S :=
    (honly.idle hidle).cons fun _ tx htx => by cases htx
  show (nonceProtocol ι k).Follows i _ (.ret (y.2.node.count address)) _
  unfold Node.count
  cases herr : y.2.node.countError with
  | some e => exact ⟨honly', fun n hn => by cases hn⟩
  | none =>
    have hcount : WalletOp.counted y.2 (.rpc (.getTransactionCount address)) =
        some (y.2.node.mined address) := if_pos herr
    refine Protocol.follows_ret (Protocol.follows_bind_run (Protocol.follows_orThrow
      (fun h => by cases h) fun hex hhex => ?_))
    obtain rfl := Option.some.inj hhex
    dsimp only
    rw [trimHexPrefix_toDigits]
    cases hparse : Text.parseHex 64 (Nat.toDigits 16 (y.2.node.mined address)) with
    | error e => exact Protocol.follows_ret ⟨honly', fun n hn => by cases hn⟩
    | ok m =>
      refine Protocol.follows_ret ⟨honly', fun n hn => ?_⟩
      obtain rfl := Except.ok.inj hn
      have hm := Text.parseHex_toDigits_ok hparse
      exact ⟨_, List.mem_cons_self, rfl, m, hm ▸ hcount, Text.parseHex_lt hparse, rfl⟩

/-- What a call has to send: one transaction, under the nonce that it was given. -/
def Signed (y : WalletTrace ι) (i : ι) (tx : SignedTx) : Prop :=
  OnlySends y.1 i (fun _ => False) ∧ Quoted y.1 i tx.tx.nonce

theorem buildSettlementTx_follows (c : Crypto) (chainId : UInt64) (data : SettlementData)
    (honly : OnlySends x.1 i fun _ => False) :
    (nonceProtocol ι k).Follows i
      (fun r y => ∀ tx, r = .ok tx → OnlySends y.1 i (fun _ => False) ∧ Quoted y.1 i tx.nonce)
      (buildSettlementTx c chainId data).run x := by
  unfold buildSettlementTx
  cases parseAddress c data.toAddress with
  | error e => exact Protocol.follows_ret fun tx htx => by cases htx
  | ok toAddr =>
    dsimp only
    cases parseAddress c data.token with
    | error e => exact Protocol.follows_ret fun tx htx => by cases htx
    | ok tokenContract =>
      refine Protocol.follows_bind_run (Protocol.follows_mapErr ((getNonce_follows _ honly).mono ?_))
      rintro r y ⟨honly, hq⟩
      cases r with
      | error e => exact fun tx htx => by cases htx
      | ok nonce =>
        refine Protocol.follows_bind_run
          ((follows_quiet ((estimateGasParams_asks _ _ _).mono fun _ => WalletOp.Asks.sends) honly).mono ?_)
        rintro r z ⟨hlog, honly⟩
        have hquoted : Quoted z.1 i nonce := (hq nonce rfl).mono hlog
        cases r with
        | error e => exact fun tx htx => by cases htx
        | ok gas =>
          dsimp only
          split
          · refine Protocol.follows_pure fun tx htx => ?_
            obtain rfl := Except.ok.inj htx
            exact ⟨honly, hquoted⟩
          · refine Protocol.follows_pure fun tx htx => ?_
            obtain rfl := Except.ok.inj htx
            exact ⟨honly, hquoted⟩

theorem signSettlementTx_follows (c : Crypto) (chainId : UInt64) (p : Payment)
    (honly : OnlySends x.1 i fun _ => False) :
    (nonceProtocol ι k).Follows i (fun r y => ∀ tx, r = .ok tx → Signed y i tx)
      (signSettlementTx c chainId p).run x := by
  unfold signSettlementTx adapter decryptWalletKey
  refine Protocol.follows_bind_run (Protocol.follows_failIf (fun _ tx htx => by cases htx) fun _ => ?_)
  refine Protocol.follows_bind_run ?_
  cases c.decryptKey p.fromWallet with
  | error e => exact Protocol.follows_ret fun tx htx => by cases htx
  | ok privateKey =>
    refine Protocol.follows_ret (Protocol.follows_bind_run (Protocol.follows_mapErr
      ((buildSettlementTx_follows c chainId p.settlementData honly).mono ?_)))
    rintro r y hbuilt
    cases r with
    | error e => exact fun tx htx => by cases htx
    | ok unsignedTx =>
      refine Protocol.follows_mapErr ?_
      unfold signTransaction
      cases c.signError unsignedTx privateKey with
      | some e => exact Protocol.follows_ret fun tx htx => by cases htx
      | none =>
        refine Protocol.follows_pure fun tx htx => ?_
        obtain rfl := Except.ok.inj htx
        exact hbuilt unsignedTx rfl

theorem sendRawTransaction_follows {tx : SignedTx} (honly : OnlySends x.1 i (· = tx))
    (hq : Quoted x.1 i tx.tx.nonce) :
    (nonceProtocol ι k).Follows i
      (fun _ y => OnlySends y.1 i (· = tx) ∧ Quoted y.1 i tx.tx.nonce) (sendRawTransaction tx).run x := by
  refine Protocol.follows_bind_run ?_
  intro y hr hidle _ _
  have honly' : OnlySends y.1 i (· = tx) := honly.idle hidle
  have hsent : ∀ tx', (WalletOp.rpc (.sendRawTransaction tx)).sends = some tx' → tx' = tx :=
    fun tx' htx' => (Option.some.inj htx').symm
  refine ⟨fun tx' htx' => hsent tx' htx' ▸ ⟨hq.mono hr, honly'⟩, fun step => ?_⟩
  have hafter : OnlySends (y.next execWallet i step (.rpc (.sendRawTransaction tx))).1 i (· = tx) ∧
      Quoted (y.next execWallet i step (.rpc (.sendRawTransaction tx))).1 i tx.tx.nonce :=
    ⟨honly'.cons fun _ => hsent, hq.mono (hr.trans (List.suffix_cons _ _))⟩
  show (nonceProtocol ι k).Follows i _ (.ret (step.fate.answer _)) _
  cases step.fate.answer (tx ∈ y.2.node.accepted) with
  | error e => exact hafter
  | ok resp => exact Protocol.follows_ret (Protocol.follows_orThrow (fun _ => hafter) fun _ _ => hafter)

/-- Every attempt sends the transaction. -/
theorem sendAttempts_follows {tx : SignedTx} (retries : Nat) (honly : OnlySends x.1 i (· = tx))
    (hq : Quoted x.1 i tx.tx.nonce) :
    (nonceProtocol ι k).Follows i (fun _ _ => True) (sendAttempts tx retries).run x := by
  induction retries generalizing x with
  | zero =>
    exact Protocol.follows_mapErr ((sendRawTransaction_follows honly hq).mono fun _ _ _ => trivial)
  | succ retries ih =>
    refine Protocol.follows_bind_run (Protocol.follows_lift
      ((sendRawTransaction_follows honly hq).mono ?_))
    rintro r y ⟨honly, hq⟩
    cases r with
    | ok txHash => exact Protocol.follows_pure trivial
    | error e =>
      dsimp only
      split
      · exact ih honly hq
      · exact Protocol.follows_ret trivial

theorem quiet_obeys {p : Prog WalletOp WalletOp.Reply SqlError α} (hp : p.Issues WalletOp.Quiet) :
    (nonceProtocol ι k).Obeys i p := by
  refine Protocol.obeys_of_issues (fun o ho y tx htx => ?_) hp
  change o.sends = none at ho
  rw [ho] at htx
  cases htx

theorem sendSettlementTx_follows (c : Crypto) (chainId : UInt64) (p : Payment)
    (honly : OnlySends x.1 i fun _ => False) :
    (nonceProtocol ι k).Follows i (fun _ _ => True) (sendSettlementTx c chainId p).run x := by
  unfold sendSettlementTx sendRecorded
  refine Protocol.follows_bind_run ((signSettlementTx_follows c chainId p honly).mono ?_)
  intro r y hsigned
  cases r with
  | error e => trivial
  | ok signedTx =>
    obtain ⟨honly, hq⟩ := hsigned signedTx rfl
    refine Protocol.follows_bind_run ((follows_quiet (Call.issues_op (by exact rfl)) honly).mono ?_)
    rintro r z ⟨hlog, honly⟩
    cases r with
    | error e => trivial
    | ok u =>
      have honly' : OnlySends z.1 i (· = signedTx) := fun d hd hi tx htx => (honly d hd hi tx htx).elim
      refine Protocol.follows_bind_run (Protocol.follows_lift
        ((sendAttempts_follows MAX_SEND_RETRIES honly' (hq.mono hlog)).mono ?_))
      intro r z' _
      cases r with
      | ok txHash =>
        refine quiet_obeys (Call.issues_bind ?_ fun fee => ?_) z'
        · exact Call.issues_lift (estimateFees_asks.mono fun _ => WalletOp.Asks.sends)
        · exact Call.issues_bind (Call.issues_op (by exact rfl)) fun _ => Call.issues_pure _
      | error e =>
        exact quiet_obeys (Call.issues_bind (Call.issues_op (by exact rfl)) fun _ => Call.issues_throw _) z'

end Follows

/-! ## Runs -/

theorem given_of_fresh {k : Nat} {l : List (WalletDone ι)} (h : FreshCounts l) :
    (nonceProtocol ι k).Given l := by
  induction l with
  | nil => trivial
  | cons d l ih => exact ⟨h, ih (h.sublist ((List.sublist_cons_self d l).filterMap _))⟩

variable [DecidableEq ι]

/-- Where no two calls for a wallet are answered the same count, what the node accepts carries distinct
nonces. -/
theorem nonces_distinct (c : Crypto) (chainId : UInt64) (wallet : Wallet) (payments : ι → Payment)
    (w : WalletWorld) (l : List (WalletDone ι)) (p : WalletPool ι)
    (run : Pool.Run execWallet (walletPool c chainId wallet payments w) l p) (hfresh : FreshCounts l) :
    DistinctNonces (p.store.node.acceptedSince w.node.accepted.length) := by
  have hnone : w.node.acceptedSince w.node.accepted.length = [] := List.drop_length
  have hinv : (nonceProtocol ι w.node.accepted.length).inv ([], w) :=
    { fresh := List.nodup_nil
      grown := Nat.le_refl _
      sent := fun tx htx => by rw [hnone] at htx; cases htx
      quoted := fun d hd => by cases hd
      distinct := by rw [hnone]; exact List.nodup_nil }
  have hnothing : ∀ i, OnlySends ([] : List (WalletDone ι)) i fun _ => False := fun i d hd => by cases hd
  have htask : ∀ i, (nonceProtocol ι w.node.accepted.length).Follows i (fun _ _ => True)
      ((walletPool c chainId wallet payments w).task i) ([], w) := fun i =>
    Protocol.follows_bind ((sendSettlementTx_follows c chainId _ (hnothing i)).mono
      fun _ _ _ => Protocol.follows_ret trivial)
  exact (Protocol.run_follows run (given_of_fresh hfresh) hinv htask).1.inv.distinct

/-! ## Two payments from one wallet -/

/-- The first payment goes through, so many transactions are mined, and the second one goes through at
twice the fees. -/
def twoPayments (mined : Nat) : List (WalletDone Payee) × WalletPool Payee :=
  Pool.play execWallet
    (List.replicate 9 (.first, demoStep 1000000000 0) ++ (.first, demoStep 1000000000 mined) ::
      List.replicate 10 (.second, demoStep 2000000000 0))
    ([], walletPool demoCrypto 1 demoWallet demoPayment demoWorld)

theorem twoPayments_run (mined : Nat) :
    Pool.Run execWallet (walletPool demoCrypto 1 demoWallet demoPayment demoWorld)
      (twoPayments mined).1 (twoPayments mined).2 := by
  apply Pool.Run.play
  exact .start

/-- The first payment is mined before the second asks for its nonce. -/
theorem nonces_distinct_demo : DistinctNonces ((twoPayments 1).2.store.node.acceptedSince 0) :=
  nonces_distinct demoCrypto 1 demoWallet demoPayment demoWorld _ _ (twoPayments_run 1)
    (by decide +kernel)

/-- Two payments are submitted under one nonce. -/
theorem nonces_not_distinct :
    ¬ ∀ (c : Crypto) (chainId : UInt64) (wallet : Wallet) (payments : Payee → Payment) (w : WalletWorld)
      (l : List (WalletDone Payee)) (p : WalletPool Payee),
      Pool.Run execWallet (walletPool c chainId wallet payments w) l p →
      (∀ i, (p.task i).next.isNone = true) →
      (∀ i, ∃ r ∈ p.store.records.rows, r.id = (payments i).env.uuid 0 ∧ r.status = .Submitted) →
      p.store.node.mined wallet.address = w.node.mined wallet.address →
      DistinctNonces (p.store.node.acceptedSince w.node.accepted.length) := by
  intro h
  have hend : (∀ i ∈ [Payee.first, .second], ((twoPayments 0).2.task i).next.isNone = true ∧
        ∃ r ∈ (twoPayments 0).2.store.records.rows,
          r.id = (demoPayment i).env.uuid 0 ∧ r.status = .Submitted) ∧
      (twoPayments 0).2.store.node.mined demoWallet.address = demoWorld.node.mined demoWallet.address ∧
      ¬ DistinctNonces ((twoPayments 0).2.store.node.acceptedSince 0) := by decide +kernel
  obtain ⟨hpayees, hmined, hsame⟩ := hend
  have hmem : ∀ i, i ∈ [Payee.first, .second] := by
    intro i
    cases i <;> simp
  have hdistinct := h demoCrypto 1 demoWallet demoPayment demoWorld _ _ (twoPayments_run 0)
    (fun i => (hpayees i (hmem i)).1) (fun i => (hpayees i (hmem i)).2) hmined
  exact hsame hdistinct

end IntentX.OnChain
