import IntentX.Lib.Bytes
import IntentX.Receipts

/-!
# Token balances

`get_balance` of the Ethereum adapter in `src/wallet/ethereum.rs`, and `eth_call` of `src/wallet/rpc.rs`.  A
token answers `balanceOf` with a word of 32 bytes.  The adapter takes the last eight bytes of the word, and
zero for a text that is shorter or not hexadecimal, so it never refuses a text: what it returns is the balance
only of a single word with zeros in front (`getBalance_iff`).
-/

namespace IntentX.TokenBalance

open Lib Text Bytes
open CircuitBreaker (Recorder)
open OnChain (RpcError ChainError Crypto parseAddress encodeAddress)
open Receipts

/-! ## The query -/

/-- `BALANCE_OF_SELECTOR` -/
def balanceOfSelector : List UInt8 := [0x70, 0xa0, 0x82, 0x31]

def encodeBalanceOf (account : List UInt8) : List UInt8 := balanceOfSelector ++ encodeAddress account

/-- The parameters of `eth_call`, of the latest block. -/
structure EthCall where
  toAddress : String
  data : String
  deriving DecidableEq, Repr

/-- What the node answers to a call. -/
abbrev Node := EthCall → Answer

def hexString (resp : Json) : Except (Thrown RpcError) String :=
  resp.asStr.elim (.error (.error (.Parse "Expected hex string from eth_call"))) .ok

def ethCall (client : RpcClient) (turn : CircuitBreaker.Turn) (node : Node) (toAddress data : String)
    (w : Recorder) : Except (Thrown RpcError) String × Recorder :=
  let (r, w) := client.call turn (node ⟨toAddress, data⟩) w
  (r.bind hexString, w)

def chainError : Thrown RpcError → Thrown ChainError
  | .error e => .error (.Rpc e.text)
  | .panicked => .panicked

/-- The last eight bytes of the first word, and zero for less than a word. -/
def readBalance (result : String) : UInt64 :=
  let bytes := dataBytes result
  if bytes.length ≥ 32 then .ofNat (fromBeBytes (slice bytes 24 32)) else 0

def getBalance (c : Crypto) (client : RpcClient) (turn : CircuitBreaker.Turn) (node : Node)
    (address token : String) (w : Recorder) : Except (Thrown ChainError) UInt64 × Recorder :=
  match parseAddress c address with
  | .error e => (.error (.error (.Rpc ("Bad address: " ++ e))), w)
  | .ok account =>
    let calldata := encodeBalanceOf account
    let (r, w) := ethCall client turn node token ("0x" ++ toHex calldata) w
    ((r.mapError chainError).map readBalance, w)

/-! ## What the token says -/

/-- The text of an answer, if it has one. -/
def text : Answer → Option String
  | .response ⟨some (.string s), none⟩ => some s
  | _ => none

/-- The value of a text that is a word of 32 bytes, with or without `0x`. -/
def wordValue (s : String) : Option Nat :=
  (hexDecode (strip0x s)).bind fun bytes => if bytes.length = 32 then some (fromBeBytes bytes) else none

/-- The answer to the query for the balance, if the address is one and the breaker lets the query out. -/
def answered (c : Crypto) (client : RpcClient) (turn : CircuitBreaker.Turn) (node : Node)
    (address token : String) (w : Recorder) : Option Answer :=
  match parseAddress c address with
  | .error _ => none
  | .ok account =>
    if turn.Admits client.breaker w.inner then some (node ⟨token, "0x" ++ toHex (encodeBalanceOf account)⟩)
    else none

/-- Nothing is returned but the value of the answer, and an answer without a value of 64 bits is an error. -/
structure ExactOrRefused (answer : Option Answer) (r : Except (Thrown ChainError) UInt64) : Prop where
  exact : ∀ b, r = .ok b → ∃ a s, answer = some a ∧ text a = some s ∧ wordValue s = some b.toNat
  refused : ∀ a, answer = some a → (∀ s v, text a = some s → wordValue s = some v → 2 ^ 64 ≤ v) →
    ∃ e, r = .error (.error e)

section Balance

variable {c : Crypto} {client : RpcClient} {turn : CircuitBreaker.Turn} {node : Node} {address token : String}
  {w : Recorder} {account : List UInt8} {answer : Answer} {s : String}

theorem operation_text (h : text answer = some s) : answer.operation rpcTexts = .ok (.string s) := by
  unfold text at h
  split at h
  · cases h
    rfl
  · cases h

/-- Without a text the operation fails or gives something else. -/
theorem operation_no_text (h : text answer = none) :
    (∃ e, answer.operation rpcTexts = .error e) ∨
      ∃ json, answer.operation rpcTexts = .ok json ∧ json.asStr = none := by
  rcases answer with e | e | ⟨_ | json, _ | err⟩
  · exact .inl ⟨_, rfl⟩
  · exact .inl ⟨_, rfl⟩
  · exact .inl ⟨_, rfl⟩
  · exact .inl ⟨_, rfl⟩
  · cases json with
    | null => exact .inl ⟨_, rfl⟩
    | string s => cases h
    | _ => exact .inr ⟨_, rfl, rfl⟩
  · exact .inl ⟨_, rfl⟩

theorem call_sent (h : turn.Admits client.breaker w.inner) (answer : Answer) :
    (client.call turn answer w).1 = (answer.operation rpcTexts).mapError .error := by
  have hcall := (CircuitBreaker.call_admitted h (answer.operation rpcTexts)).1
  unfold RpcClient.call guarded
  dsimp only
  rw [hcall]
  cases answer.operation rpcTexts <;> rfl

theorem call_not_sent (h : ¬ turn.Admits client.breaker w.inner) (answer : Answer) :
    ∃ e, (client.call turn answer w).1 = .error e := by
  obtain ⟨⟨e, hcall⟩, -⟩ := CircuitBreaker.call_rejected h (answer.operation rpcTexts)
  unfold RpcClient.call guarded
  dsimp only
  rw [hcall]
  exact ⟨_, rfl⟩

theorem answered_eq_some_iff : answered c client turn node address token w = some answer ↔
    ∃ account, parseAddress c address = .ok account ∧ turn.Admits client.breaker w.inner ∧
      node ⟨token, "0x" ++ toHex (encodeBalanceOf account)⟩ = answer := by
  unfold answered
  cases parseAddress c address with
  | error e => simp
  | ok account => simp

theorem getBalance_not_answered (h : answered c client turn node address token w = none) :
    ∃ e, (getBalance c client turn node address token w).1 = .error e := by
  unfold answered at h
  unfold getBalance
  cases haddress : parseAddress c address with
  | error e => exact ⟨_, rfl⟩
  | ok account =>
    rw [haddress] at h
    have hnot : ¬ turn.Admits client.breaker w.inner := by
      intro hadmits
      simp [hadmits] at h
    obtain ⟨e, hcall⟩ := call_not_sent hnot (node ⟨token, "0x" ++ toHex (encodeBalanceOf account)⟩)
    unfold ethCall
    dsimp only
    rw [hcall]
    exact ⟨_, rfl⟩

theorem getBalance_answered (h : answered c client turn node address token w = some answer) :
    (getBalance c client turn node address token w).1 =
      ((((answer.operation rpcTexts).mapError Thrown.error).bind hexString).mapError chainError).map readBalance := by
  obtain ⟨account, haddress, hadmits, rfl⟩ := answered_eq_some_iff.1 h
  unfold getBalance ethCall
  rw [haddress]
  dsimp only
  rw [call_sent hadmits]

theorem getBalance_no_text (h : answered c client turn node address token w = some answer)
    (htext : text answer = none) : ∃ e, (getBalance c client turn node address token w).1 = .error (.error e) := by
  rw [getBalance_answered h]
  rcases operation_no_text htext with ⟨e, he⟩ | ⟨json, hjson, hstr⟩
  · rw [he]
    exact ⟨_, rfl⟩
  · rw [hjson]
    show ∃ e, ((hexString json).mapError chainError).map readBalance = _
    rw [hexString, hstr]
    exact ⟨_, rfl⟩

/-- No text is refused. -/
theorem getBalance_text (h : answered c client turn node address token w = some answer)
    (htext : text answer = some s) : (getBalance c client turn node address token w).1 = .ok (readBalance s) := by
  rw [getBalance_answered h, operation_text htext]
  rfl

theorem readBalance_word {v : Nat} (h : wordValue s = some v) : readBalance s = .ofNat v := by
  obtain ⟨bytes, hhex, hvalue⟩ := Option.bind_eq_some_iff.1 h
  split at hvalue
  · next hlen =>
    obtain rfl := Option.some.inj hvalue
    have hbytes : dataBytes s = bytes := by
      rw [dataBytes, hhex]
      rfl
    have hslice : slice bytes 24 32 = bytes.drop 24 := by
      rw [slice, List.take_of_length_le (by omega)]
    unfold readBalance
    rw [hbytes, if_pos (by omega), hslice]
    exact ofBeBytes_drop (n := 24) (by omega)
  · cases hvalue

/-- The balance is exact or refused if and only if every text that answers the query is a word of 32 bytes with
a value of 64 bits. -/
theorem getBalance_iff (c : Crypto) (client : RpcClient) (turn : CircuitBreaker.Turn) (node : Node)
    (address token : String) (w : Recorder) :
    ExactOrRefused (answered c client turn node address token w) (getBalance c client turn node address token w).1 ↔
      ∀ a s, answered c client turn node address token w = some a → text a = some s →
        ∃ v, wordValue s = some v ∧ v < 2 ^ 64 := by
  constructor
  · intro h a s hanswer htext
    obtain ⟨a', s', hanswer', htext', hvalue⟩ := h.exact _ (getBalance_text hanswer htext)
    obtain rfl := Option.some.inj (hanswer.symm.trans hanswer')
    obtain rfl := Option.some.inj (htext.symm.trans htext')
    exact ⟨_, hvalue, UInt64.toNat_lt _⟩
  · intro h
    refine ⟨?_, ?_⟩
    · intro b hb
      cases hanswer : answered c client turn node address token w with
      | none =>
        obtain ⟨e, he⟩ := getBalance_not_answered hanswer
        cases he.symm.trans hb
      | some a =>
        cases htext : text a with
        | none =>
          obtain ⟨e, he⟩ := getBalance_no_text hanswer htext
          cases he.symm.trans hb
        | some s =>
          obtain ⟨v, hvalue, hlt⟩ := h a s hanswer htext
          have hread := Except.ok.inj ((getBalance_text hanswer htext).symm.trans hb)
          rw [readBalance_word hvalue] at hread
          refine ⟨a, s, rfl, htext, ?_⟩
          rw [← hread, UInt64.toNat_ofNat_of_lt' hlt]
          exact hvalue
    · intro a hanswer hbig
      cases htext : text a with
      | none => exact getBalance_no_text hanswer htext
      | some s =>
        obtain ⟨v, hvalue, hlt⟩ := h a s hanswer htext
        exact absurd (hbig s v htext hvalue) (Nat.not_le.2 hlt)

end Balance

/-! ## Two answers -/

/-- A node that answers every call with a text. -/
def answering (s : String) : Node := fun _ => .response ⟨some (.string s), none⟩

def holder : String := "0x3ee18B2214AFF97000D974cf647E7C347E8fa585"

def token : String := "0xA0b86991c6218b36c1d19D4a2e9Eb0cE3606eB48"

/-- `2 ^ 64 + 5` -/
def large : String := "0x0000000000000000000000000000000000000000000000010000000000000005"

def demoAnswer (s : String) : Option Answer :=
  answered OnChain.demoCrypto (.new 1) (Receipts.quiet 0) (answering s) holder token ⟨.new, []⟩

def demoBalance (s : String) : Except (Thrown ChainError) UInt64 :=
  (getBalance OnChain.demoCrypto (.new 1) (Receipts.quiet 0) (answering s) holder token ⟨.new, []⟩).1

theorem demoAnswer_eq (s : String) : demoAnswer s = some (.response ⟨some (.string s), none⟩) := by
  have haddress : ∃ account, parseAddress OnChain.demoCrypto holder = .ok account := by
    have hok : (parseAddress OnChain.demoCrypto holder).isOk = true := by decide +kernel
    cases haddress : parseAddress OnChain.demoCrypto holder with
    | ok account => exact ⟨account, rfl⟩
    | error e =>
      rw [haddress] at hok
      cases hok
  obtain ⟨account, haddress⟩ := haddress
  exact answered_eq_some_iff.2 ⟨account, haddress, by decide, rfl⟩

theorem demoBalance_eq (s : String) : demoBalance s = .ok (readBalance s) :=
  getBalance_text (demoAnswer_eq s) rfl

/-- Of `2 ^ 64 + 5` five are returned; and zero of `0x`, which an address without a contract answers. -/
theorem balance_not_exact :
    wordValue large = some (2 ^ 64 + 5) ∧ demoBalance large = .ok 5 ∧ demoBalance "0x" = .ok 0 ∧
      ¬ ExactOrRefused (demoAnswer large) (demoBalance large) ∧
      ¬ ExactOrRefused (demoAnswer "0x") (demoBalance "0x") := by
  have hlarge : wordValue large = some (2 ^ 64 + 5) := by decide +kernel
  have hempty : wordValue "0x" = none := by decide +kernel
  have hfive : demoBalance large = .ok 5 := by
    rw [demoBalance_eq, readBalance_word hlarge]
    rfl
  have hzero : demoBalance "0x" = .ok 0 := by
    rw [demoBalance_eq]
    exact congrArg Except.ok (by decide +kernel)
  refine ⟨hlarge, hfive, hzero, ?_, ?_⟩
  · intro h
    obtain ⟨e, he⟩ := h.refused _ (demoAnswer_eq large) fun s v hs hv => by
      obtain rfl := Option.some.inj hs
      obtain rfl := Option.some.inj (hlarge.symm.trans hv)
      decide
    cases he.symm.trans hfive
  · intro h
    obtain ⟨e, he⟩ := h.refused _ (demoAnswer_eq "0x") fun s v hs hv => by
      obtain rfl := Option.some.inj hs
      cases hempty.symm.trans hv
    cases he.symm.trans hzero

end IntentX.TokenBalance
