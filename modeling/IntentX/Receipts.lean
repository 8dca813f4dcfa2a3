import IntentX.Breaker
import IntentX.Bridges
import IntentX.Wallet

/-!
# Receipts that are not there yet

A transaction that is not mined yet has no receipt, and the node answers `null`.  `get_transaction_receipt` of
`src/wallet/rpc.rs` and `evm_get_receipt` of the two bridge adapters have a case for it, below a call that
reads the answer into `result: Option<Value>`.  There the `null` becomes `None` and the call fails, in the
operation of the circuit breaker.

So a receipt that is not there yet is an error and a recorded failure, and `wait_for_receipt` does not wait: it
returns the receipt if and only if no query before it is answered with `null` (`pending_receipt_iff`).
-/

namespace IntentX.CircuitBreaker

open Lib Machine

/-! ## Calls through the breaker -/

/-- A breaker, and what has been recorded there for the calls of one task. -/
structure Recorder where
  inner : Inner
  recorded : List Event

/-- What happens around a call: what other tasks do to the breaker before it and while its operation runs, and
the readings of the clock. -/
structure Turn where
  before : List Event
  now : Nat
  later : Nat
  during : List Event
  recordedAt : Nat
  recordedLater : Nat

inductive CircuitError (E : Type) where
  | Open (breaker : String) (remainingSecs : Nat)
  | Inner (e : E)
  /-- the call panics -/
  | panicked

def Recorder.record (c : Config) (w : Recorder) (e : Event) : Recorder :=
  ⟨step c w.inner e, w.recorded ++ [e]⟩

/-- `CircuitBreaker::call` -/
def call {E α : Type} (c : Config) (turn : Turn) (operation : Except E α) (w : Recorder) :
    Except (CircuitError E) α × Recorder :=
  match enter c turn.now turn.later (run (step c) w.inner turn.before) with
  | (.admitted, inner) =>
    let w : Recorder := { w with inner := run (step c) inner turn.during }
    match operation with
    | .ok a => (.ok a, w.record c (.success turn.recordedAt))
    | .error e => (.error (.Inner e), w.record c (.failure turn.recordedAt turn.recordedLater))
  | (.rejected breaker remainingSecs, inner) => (.error (.Open breaker remainingSecs), { w with inner })
  | (.panicked, inner) => (.error .panicked, { w with inner })

/-- The breaker lets the call in. -/
def Turn.Admits (turn : Turn) (c : Config) (inner : Inner) : Prop :=
  (enter c turn.now turn.later (run (step c) inner turn.before)).1 = .admitted

instance (turn : Turn) (c : Config) (inner : Inner) : Decidable (turn.Admits c inner) :=
  inferInstanceAs (Decidable (_ = _))

section Call

variable {E α : Type} {c : Config} {turn : Turn} {w : Recorder}

/-- A call that is let in returns what its operation does, and records it. -/
theorem call_admitted (h : turn.Admits c w.inner) (operation : Except E α) :
    (call c turn operation w).1 = operation.mapError .Inner ∧
      (call c turn operation w).2.recorded = w.recorded ++ [match operation with
        | .ok _ => .success turn.recordedAt
        | .error _ => .failure turn.recordedAt turn.recordedLater] := by
  unfold call
  cases henter : enter c turn.now turn.later (run (step c) w.inner turn.before) with
  | mk admission inner =>
    unfold Turn.Admits at h
    rw [henter] at h
    cases h
    cases operation with
    | ok a => exact ⟨rfl, rfl⟩
    | error e => exact ⟨rfl, rfl⟩

/-- A call that is not let in is an error, and nothing is recorded. -/
theorem call_rejected (h : ¬ turn.Admits c w.inner) (operation : Except E α) :
    (∃ e, (call c turn operation w).1 = .error e) ∧ (call c turn operation w).2.recorded = w.recorded := by
  unfold call
  cases henter : enter c turn.now turn.later (run (step c) w.inner turn.before) with
  | mk admission inner =>
    unfold Turn.Admits at h
    rw [henter] at h
    cases admission with
    | admitted => exact absurd rfl h
    | rejected breaker secs => exact ⟨⟨_, rfl⟩, rfl⟩
    | panicked => exact ⟨⟨_, rfl⟩, rfl⟩

end Call

end IntentX.CircuitBreaker

namespace IntentX.Receipts

open Lib
open CircuitBreaker (CircuitError Recorder)
open OnChain (RpcError)

/-! ## Answers -/

/-- The body of an answer; a field that is missing is `none`, one that says `null` is not. -/
structure Body where
  result : Option Json
  error : Option JsonRpcError

/-- What comes of sending a request. -/
inductive Answer where
  | unreachable (e : String)
  | garbled (e : String)
  | response (body : Body)

/-- `null` is read into a field of type `Option<Value>` as a missing field is. -/
def Body.deserialize (body : Body) : JsonRpcResponse where
  result := body.result.bind fun json => if json.isNull then none else some json
  error := body.error

/-- The errors of a client. -/
structure ErrorTexts (E : Type) where
  network : String → E
  parse : String → E
  jsonRpc : Int → String → E
  missing : E
  opened : String → Nat → E

variable {E : Type}

/-- The operation inside the breaker. -/
def Answer.operation (errs : ErrorTexts E) : Answer → Except E Json
  | .unreachable e => .error (errs.network e)
  | .garbled e => .error (errs.parse e)
  | .response body =>
    let rpcResp := body.deserialize
    match rpcResp.error with
    | some err => .error (errs.jsonRpc err.code err.message)
    | none => rpcResp.result.elim (.error errs.missing) .ok

/-! ## Calls of the clients -/

/-- What a client returns instead of a value. -/
inductive Thrown (E : Type) where
  | error (e : E)
  | panicked
  deriving DecidableEq, Repr

def thrown (errs : ErrorTexts E) : CircuitError E → Thrown E
  | .Open breaker remainingSecs => .error (errs.opened breaker remainingSecs)
  | .Inner e => .error e
  | .panicked => .panicked

/-- The operation, through the breaker if there is one. -/
def guarded (errs : ErrorTexts E) (breaker : Option CircuitBreaker.Config) (turn : CircuitBreaker.Turn)
    (answer : Answer) (w : Recorder) : Except (Thrown E) Json × Recorder :=
  match breaker with
  | some c =>
    let (r, w) := CircuitBreaker.call c turn (answer.operation errs) w
    (r.mapError (thrown errs), w)
  | none => ((answer.operation errs).mapError .error, w)

/-! ## The client of the wallet -/

structure TxReceipt where
  txHash : String
  blockNumber : Int
  gasUsed : Int
  status : Bool
  deriving DecidableEq, Repr

structure RpcClient where
  breaker : CircuitBreaker.Config

def RpcClient.new (chainId : UInt64) : RpcClient :=
  ⟨.new (if chainId = 1 ∨ chainId = 11155111 then "ethereum_rpc" else "evm_rpc") 5 30⟩

def rpcTexts : ErrorTexts RpcError where
  network := .Network
  parse := .Parse
  jsonRpc := .JsonRpc
  missing := .Parse "Missing result field"
  opened breaker remainingSecs :=
    .Network ("Circuit breaker '" ++ breaker ++ "' open (resets in " ++ toString remainingSecs ++ "s)")

def RpcClient.call (client : RpcClient) (turn : CircuitBreaker.Turn) (answer : Answer) (w : Recorder) :
    Except (Thrown RpcError) Json × Recorder :=
  guarded rpcTexts (some client.breaker) turn answer w

/-- `trim_start_matches("0x")` -/
def trim0x : List Char → List Char
  | '0' :: 'x' :: s => trim0x s
  | s => s

/-- `i64::from_str_radix(_, 16)` -/
def fromStrRadix16 : List Char → Option Int
  | ['-'] => none
  | '-' :: s => (Text.hexDigits 64 0 s).toOption.bind fun n => if n ≤ 2 ^ 63 then some (-n) else none
  | s => (Text.parseHex 63 s).toOption.map fun n => (n : Int)

def hexField (json : Json) (key : String) : String :=
  ((json.get key).bind (·.asStr)).getD "0x0"

def txReceipt (txHash : String) (resp : Json) : TxReceipt where
  txHash
  blockNumber := (fromStrRadix16 (trim0x (hexField resp "blockNumber").toList)).getD 0
  gasUsed := (fromStrRadix16 (trim0x (hexField resp "gasUsed").toList)).getD 0
  status := hexField resp "status" = "0x1"

def RpcClient.getTransactionReceipt (client : RpcClient) (txHash : String) (turn : CircuitBreaker.Turn)
    (answer : Answer) (w : Recorder) : Except (Thrown RpcError) (Option TxReceipt) × Recorder :=
  let (r, w) := client.call turn answer w
  (r.map fun resp => if resp.isNull then none else some (txReceipt txHash resp), w)

/-- Queries of the client, from the `i`-th on. -/
def RpcClient.queries (client : RpcClient) (txHash : String) (turn : Nat → CircuitBreaker.Turn)
    (answer : Nat → Answer) : (n i : Nat) → Recorder → List (Except (Thrown RpcError) (Option TxReceipt)) × Recorder
  | 0, _, w => ([], w)
  | n + 1, i, w =>
    let (r, w) := client.getTransactionReceipt txHash (turn i) (answer i) w
    let (rs, w) := client.queries txHash turn answer n (i + 1) w
    (r :: rs, w)

/-! ## The bridge adapters -/

/-- The endpoints of an adapter and their breakers. -/
structure Bridge where
  chainRpcs : String → Option String
  chainBreakers : String → Option CircuitBreaker.Config

def Bridge.new : Bridge := ⟨fun _ => none, fun _ => none⟩

def Bridge.withChainRpc (adapter : String) (bridge : Bridge) (chain rpcUrl : String) : Bridge where
  chainRpcs := Function.update bridge.chainRpcs chain (some rpcUrl)
  chainBreakers :=
    Function.update bridge.chainBreakers chain (some (.new (adapter ++ "_" ++ chain ++ "_rpc") 5 30))

def Wormhole.withChainRpc : Bridge → String → String → Bridge := Bridge.withChainRpc "wormhole"

def LayerZero.withChainRpc : Bridge → String → String → Bridge := Bridge.withChainRpc "layerzero"

def bridgeTexts : ErrorTexts BridgeError where
  network := .NetworkError
  parse e := .NetworkError ("parse: " ++ e)
  jsonRpc code message := .NetworkError ("RPC error " ++ toString code ++ ": " ++ message)
  missing := .NetworkError "null result"
  opened breaker _ := .NetworkError ("circuit open: " ++ breaker)

/-- `evm_rpc_call` is the same in both adapters, and so are the calls that use it. -/
def Bridge.evmRpcCall (bridge : Bridge) (chain : String) (turn : CircuitBreaker.Turn) (answer : Answer)
    (w : Recorder) : Except (Thrown BridgeError) Json × Recorder :=
  match bridge.chainRpcs chain with
  | none => (.error (.error (.NetworkError ("No RPC for chain: " ++ chain))), w)
  | some _ => guarded bridgeTexts (bridge.chainBreakers chain) turn answer w

def Bridge.evmGetReceipt (bridge : Bridge) (chain : String) (turn : CircuitBreaker.Turn) (answer : Answer)
    (w : Recorder) : Except (Thrown BridgeError) (Option Json) × Recorder :=
  let (r, w) := bridge.evmRpcCall chain turn answer w
  (r.map fun result => if result.isNull then none else some result, w)

/-- The attempts of `wait_for_receipt` from the `i`-th on. -/
def Bridge.receiptFrom (bridge : Bridge) (chain txHash : String) (turn : Nat → CircuitBreaker.Turn)
    (answer : Nat → Answer) : (left i : Nat) → Recorder → Except (Thrown BridgeError) Json × Recorder
  | 0, _, w => (.error (.error (.LockFailed ("Receipt not found after 20 attempts for " ++ txHash))), w)
  | left + 1, i, w =>
    match bridge.evmGetReceipt chain (turn i) (answer i) w with
    | (.error e, w) => (.error e, w)
    | (.ok (some receipt), w) =>
      if hexField receipt "status" = "0x0" then (.error (.error (.LockFailed "Source tx reverted")), w)
      else (.ok receipt, w)
    | (.ok none, w) => bridge.receiptFrom chain txHash turn answer left (i + 1) w

def Bridge.waitForReceipt (bridge : Bridge) (chain txHash : String) (turn : Nat → CircuitBreaker.Turn)
    (answer : Nat → Answer) (w : Recorder) : Except (Thrown BridgeError) Json × Recorder :=
  bridge.receiptFrom chain txHash turn answer 20 0 w

/-! ## Answers with and without a receipt -/

/-- The transaction is not mined for `k` queries, and then it has a receipt. -/
def minedAfter (k : Nat) (receipt : Json) (i : Nat) : Answer :=
  .response ⟨some (if i < k then .null else receipt), none⟩

theorem operation_null (errs : ErrorTexts E) :
    Answer.operation errs (.response ⟨some .null, none⟩) = .error errs.missing := rfl

theorem operation_value (errs : ErrorTexts E) {json : Json} (h : json.isNull = false) :
    Answer.operation errs (.response ⟨some json, none⟩) = .ok json := by
  simp [Answer.operation, Body.deserialize, h]

section Guarded

variable {breaker : Option CircuitBreaker.Config} {turn : CircuitBreaker.Turn} {w : Recorder}

/-- The query is sent: there is no breaker, or it lets the call in. -/
def Sent (breaker : Option CircuitBreaker.Config) (turn : CircuitBreaker.Turn) (w : Recorder) : Prop :=
  ∀ c ∈ breaker, turn.Admits c w.inner

theorem guarded_value (errs : ErrorTexts E) {json : Json} (h : json.isNull = false) (hsent : Sent breaker turn w) :
    (guarded errs breaker turn (.response ⟨some json, none⟩) w).1 = .ok json ∧
      ∃ l, (guarded errs breaker turn (.response ⟨some json, none⟩) w).2.recorded = w.recorded ++ l ∧
        ∀ e ∈ l, e.isFailure = false := by
  unfold guarded
  cases breaker with
  | none =>
    rw [operation_value errs h]
    exact ⟨rfl, [], by simp⟩
  | some c =>
    obtain ⟨hresult, hrecorded⟩ := CircuitBreaker.call_admitted (hsent c rfl) (Answer.operation errs
      (.response ⟨some json, none⟩))
    rw [operation_value errs h] at hresult hrecorded ⊢
    dsimp only
    rw [hresult, hrecorded]
    exact ⟨rfl, _, rfl, by simp [CircuitBreaker.Event.isFailure]⟩

theorem guarded_not_sent (errs : ErrorTexts E) (answer : Answer) (h : ¬ Sent breaker turn w) :
    (∃ e, (guarded errs breaker turn answer w).1 = .error e) ∧
      (guarded errs breaker turn answer w).2.recorded = w.recorded := by
  unfold guarded
  cases breaker with
  | none => exact absurd (fun c hc => nomatch hc) h
  | some c =>
    have hnot : ¬ turn.Admits c w.inner := by
      intro hadmits
      exact h fun c' hc' => Option.some.inj hc' ▸ hadmits
    obtain ⟨⟨e, hresult⟩, hrecorded⟩ := CircuitBreaker.call_rejected hnot (answer.operation errs)
    dsimp only
    rw [hresult, hrecorded]
    exact ⟨⟨_, rfl⟩, rfl⟩

/-- An answer of `null` never comes through. -/
theorem guarded_null (errs : ErrorTexts E) (breaker : Option CircuitBreaker.Config)
    (turn : CircuitBreaker.Turn) (w : Recorder) :
    ∃ e, (guarded errs breaker turn (.response ⟨some .null, none⟩) w).1 = .error e := by
  by_cases hsent : Sent breaker turn w
  · unfold guarded
    cases breaker with
    | none => exact ⟨_, rfl⟩
    | some c =>
      obtain ⟨hresult, -⟩ := CircuitBreaker.call_admitted (hsent c rfl)
        (Answer.operation errs (.response ⟨some .null, none⟩))
      dsimp only
      rw [hresult, operation_null]
      exact ⟨_, rfl⟩
  · exact (guarded_not_sent errs _ hsent).1

end Guarded

/-! ## A receipt that is not there yet -/

/-- None of the calls in question has been recorded as a failure. -/
def NoFailure (w : Recorder) : Prop := ∀ e ∈ w.recorded, e.isFailure = false

/-- The client says of each query before the receipt that there is none yet. -/
def PendingReported (client : RpcClient) (txHash : String) (turn : Nat → CircuitBreaker.Turn) (k : Nat)
    (receipt : Json) (inner : CircuitBreaker.Inner) : Prop :=
  (client.queries txHash turn (minedAfter k receipt) (k + 1) 0 ⟨inner, []⟩).1.take k =
      List.replicate k (.ok none) ∧
    NoFailure (client.queries txHash turn (minedAfter k receipt) (k + 1) 0 ⟨inner, []⟩).2

/-- The adapter waits for the receipt. -/
def ReceiptReturned (bridge : Bridge) (chain txHash : String) (turn : Nat → CircuitBreaker.Turn) (k : Nat)
    (receipt : Json) (inner : CircuitBreaker.Inner) : Prop :=
  (bridge.waitForReceipt chain txHash turn (minedAfter k receipt) ⟨inner, []⟩).1 = .ok receipt ∧
    NoFailure (bridge.waitForReceipt chain txHash turn (minedAfter k receipt) ⟨inner, []⟩).2

/-- The adapter has an endpoint for the chain, and its breaker lets the first query in. -/
def Bridge.Sends (bridge : Bridge) (chain : String) (turn : Nat → CircuitBreaker.Turn)
    (inner : CircuitBreaker.Inner) : Prop :=
  (bridge.chainRpcs chain).isSome ∧ Sent (bridge.chainBreakers chain) (turn 0) ⟨inner, []⟩

section Receipts

variable {client : RpcClient} {bridge : Bridge} {chain txHash : String} {turn : Nat → CircuitBreaker.Turn}
  {k : Nat} {receipt : Json} {inner : CircuitBreaker.Inner}

theorem minedAfter_zero_of_pos (h : 0 < k) : minedAfter k receipt 0 = .response ⟨some .null, none⟩ := by
  rw [minedAfter, if_pos h]

theorem minedAfter_zero : minedAfter 0 receipt 0 = .response ⟨some receipt, none⟩ := rfl

theorem isNull_of_get {key : String} {json : Json} (h : receipt.get key = some json) : receipt.isNull = false := by
  cases receipt with
  | null => cases h
  | _ => rfl

theorem pendingReported_iff (hreceipt : receipt.isNull = false) :
    PendingReported client txHash turn k receipt inner ↔ k = 0 := by
  constructor
  · rintro ⟨hpending, -⟩
    by_contra hk
    obtain ⟨m, rfl⟩ := Nat.exists_eq_succ_of_ne_zero hk
    obtain ⟨e, hnull⟩ := guarded_null rpcTexts (some client.breaker) (turn 0) ⟨inner, []⟩
    -- the first answer is an error, not a receipt that is not there
    have hhead := congrArg List.head? hpending
    simp only [RpcClient.queries, RpcClient.getTransactionReceipt, RpcClient.call,
      minedAfter_zero_of_pos (Nat.succ_pos m), hnull, List.replicate_succ, List.take_succ_cons,
      List.head?_cons] at hhead
    cases hhead
  · rintro rfl
    refine ⟨rfl, ?_⟩
    have hqueries : (client.queries txHash turn (minedAfter 0 receipt) (0 + 1) 0 ⟨inner, []⟩).2 =
        (guarded rpcTexts (some client.breaker) (turn 0) (.response ⟨some receipt, none⟩)
          ⟨inner, []⟩).2 := rfl
    intro e he
    rw [hqueries] at he
    by_cases hsent : Sent (some client.breaker) (turn 0) ⟨inner, []⟩
    · obtain ⟨-, l, hrecorded, hall⟩ := guarded_value rpcTexts hreceipt hsent
      rw [hrecorded] at he
      exact hall e he
    · rw [(guarded_not_sent rpcTexts _ hsent).2] at he
      cases he

theorem evmRpcCall_of_isSome (h : (bridge.chainRpcs chain).isSome) (turn : CircuitBreaker.Turn)
    (answer : Answer) (w : Recorder) :
    bridge.evmRpcCall chain turn answer w =
      guarded bridgeTexts (bridge.chainBreakers chain) turn answer w := by
  obtain ⟨url, hurl⟩ := Option.isSome_iff_exists.1 h
  rw [Bridge.evmRpcCall, hurl]

/-- An error of the first query is what is returned. -/
theorem waitForReceipt_error {e : Thrown BridgeError} {w' : Recorder} {w : Recorder} {answer : Nat → Answer}
    (h : bridge.evmRpcCall chain (turn 0) (answer 0) w = (.error e, w')) :
    bridge.waitForReceipt chain txHash turn answer w = (.error e, w') := by
  unfold Bridge.waitForReceipt Bridge.receiptFrom Bridge.evmGetReceipt
  rw [h]
  rfl

/-- So is a receipt that does not say that the transaction failed. -/
theorem waitForReceipt_value {w w' : Recorder} (txHash : String) (turn : Nat → CircuitBreaker.Turn)
    (answer : Nat → Answer)
    (h : bridge.evmRpcCall chain (turn 0) (answer 0) w = (.ok receipt, w')) (hnull : receipt.isNull = false)
    (hstatus : hexField receipt "status" ≠ "0x0") :
    bridge.waitForReceipt chain txHash turn answer w = (.ok receipt, w') := by
  have hget : bridge.evmGetReceipt chain (turn 0) (answer 0) w = (.ok (some receipt), w') := by
    rw [Bridge.evmGetReceipt, h]
    simp [Except.map, hnull]
  rw [Bridge.waitForReceipt, Bridge.receiptFrom, hget]
  exact if_neg hstatus

theorem receiptReturned_iff (hreceipt : receipt.get "status" = some (.string "0x1")) :
    ReceiptReturned bridge chain txHash turn k receipt inner ↔ k = 0 ∧ bridge.Sends chain turn inner := by
  have hnull := isNull_of_get hreceipt
  have herror {e} (h : (bridge.evmRpcCall chain (turn 0) (minedAfter k receipt 0) ⟨inner, []⟩).1 = .error e) :
      ¬ ReceiptReturned bridge chain txHash turn k receipt inner := by
    rintro ⟨hok, -⟩
    rw [waitForReceipt_error (Prod.ext h rfl)] at hok
    cases hok
  constructor
  · intro hreturned
    by_cases hrpc : (bridge.chainRpcs chain).isSome
    · have hcall := evmRpcCall_of_isSome hrpc (turn 0) (minedAfter k receipt 0) ⟨inner, []⟩
      have hk : k = 0 := by
        by_contra hk
        obtain ⟨e, hmissing⟩ := guarded_null bridgeTexts (bridge.chainBreakers chain) (turn 0) ⟨inner, []⟩
        rw [minedAfter_zero_of_pos (Nat.pos_of_ne_zero hk)] at hcall
        refine herror (e := e) ?_ hreturned
        rw [minedAfter_zero_of_pos (Nat.pos_of_ne_zero hk), hcall, hmissing]
      refine ⟨hk, hrpc, ?_⟩
      by_contra hsent
      obtain ⟨⟨e, hrejected⟩, -⟩ := guarded_not_sent bridgeTexts (minedAfter k receipt 0) hsent
      exact herror (hcall ▸ hrejected) hreturned
    · have hnone := Option.not_isSome_iff_eq_none.1 hrpc
      refine absurd hreturned (herror (e := .error (.NetworkError ("No RPC for chain: " ++ chain))) ?_)
      rw [Bridge.evmRpcCall, hnone]
  · rintro ⟨rfl, hrpc, hsent⟩
    obtain ⟨hvalue, l, hrecorded, hall⟩ := guarded_value bridgeTexts hnull hsent
    have hcall := evmRpcCall_of_isSome hrpc (turn 0) (minedAfter 0 receipt 0) ⟨inner, []⟩
    rw [minedAfter_zero] at hcall
    have hstatus : hexField receipt "status" ≠ "0x0" := by
      rw [hexField, hreceipt]
      decide
    have hwait := waitForReceipt_value txHash turn (minedAfter 0 receipt)
      (hcall.trans (Prod.ext hvalue rfl)) hnull hstatus
    refine ⟨congrArg Prod.fst hwait, ?_⟩
    intro e he
    rw [hwait] at he
    rw [hrecorded] at he
    exact hall e he

/-- A receipt that is not there yet is no error, for the client of the wallet and for both adapters, if and
only if it is there at the first query, and the adapters get to send that. -/
theorem pending_receipt_iff {wormhole layerZero : Bridge} {turn' turn'' : Nat → CircuitBreaker.Turn}
    {inner' inner'' : CircuitBreaker.Inner} (hreceipt : receipt.get "status" = some (.string "0x1")) :
    PendingReported client txHash turn k receipt inner ∧
      ReceiptReturned wormhole chain txHash turn' k receipt inner' ∧
      ReceiptReturned layerZero chain txHash turn'' k receipt inner'' ↔
    k = 0 ∧ wormhole.Sends chain turn' inner' ∧ layerZero.Sends chain turn'' inner'' := by
  rw [pendingReported_iff (isNull_of_get hreceipt), receiptReturned_iff hreceipt, receiptReturned_iff hreceipt]
  constructor
  · rintro ⟨hk, ⟨-, hwormhole⟩, -, hlayerZero⟩
    exact ⟨hk, hwormhole, hlayerZero⟩
  · rintro ⟨hk, hwormhole, hlayerZero⟩
    exact ⟨hk, ⟨hk, hwormhole⟩, hk, hlayerZero⟩

end Receipts

/-- No other task, and the clock stands still. -/
def quiet (_ : Nat) : CircuitBreaker.Turn := ⟨[], 0, 0, [], 0, 0⟩

def successful : Json := .object [("status", .string "0x1"), ("blockNumber", .string "0x10")]

def wormholeDemo : Bridge := Wormhole.withChainRpc .new "ethereum" "http://eth-rpc"

def layerZeroDemo : Bridge := LayerZero.withChainRpc .new "ethereum" "http://eth-rpc"

theorem pending_receipt_at_once :
    PendingReported (.new 1) "0xab" quiet 0 successful .new ∧
      ReceiptReturned wormholeDemo "ethereum" "0xab" quiet 0 successful .new ∧
      ReceiptReturned layerZeroDemo "ethereum" "0xab" quiet 0 successful .new := by
  have hwormhole : wormholeDemo.Sends "ethereum" quiet .new := by
    refine ⟨rfl, ?_⟩
    rintro c ⟨⟩
    decide
  have hlayerZero : layerZeroDemo.Sends "ethereum" quiet .new := by
    refine ⟨rfl, ?_⟩
    rintro c ⟨⟩
    decide
  exact (pending_receipt_iff rfl).2 ⟨rfl, hwormhole, hlayerZero⟩

/-- One `null` before the receipt: the client and both adapters fail, and each breaker has recorded it. -/
theorem null_receipt_fails :
    (RpcClient.new 1).queries "0xab" quiet (minedAfter 1 successful) 1 0 ⟨.new, []⟩ =
      ([.error (.error (.Parse "Missing result field"))],
        CircuitBreaker.Recorder.record (RpcClient.new 1).breaker ⟨.new, []⟩ (.failure 0 0)) ∧
    (wormholeDemo.waitForReceipt "ethereum" "0xab" quiet (minedAfter 1 successful) ⟨.new, []⟩).1 =
      .error (.error (.NetworkError "null result")) ∧
    (layerZeroDemo.waitForReceipt "ethereum" "0xab" quiet (minedAfter 1 successful) ⟨.new, []⟩).1 =
      .error (.error (.NetworkError "null result")) ∧
    (wormholeDemo.waitForReceipt "ethereum" "0xab" quiet (minedAfter 1 successful) ⟨.new, []⟩).2.recorded =
      [.failure 0 0] ∧
    (layerZeroDemo.waitForReceipt "ethereum" "0xab" quiet (minedAfter 1 successful) ⟨.new, []⟩).2.recorded =
      [.failure 0 0] :=
  ⟨rfl, rfl, rfl, rfl, rfl⟩

end IntentX.Receipts
