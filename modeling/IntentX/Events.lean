import IntentX.Bridges
import IntentX.Lib.Abi

/-!
# The events of the locks and the claims

What `parse_packet_sent` of `src/cross_chain/layerzero.rs`, `parse_lock_logs` of `src/cross_chain/wormhole.rs`
and `extract_secret_from_logs` of `src/cross_chain/htlc/service.rs` make of the events that the contracts emit.

    PacketSent(bytes encodedPacket, bytes options, address sendLibrary)
    LogMessagePublished(address indexed sender, uint64 sequence, uint32 nonce, bytes payload,
                        uint8 consistencyLevel)
    FundsClaimed { htlc, receiver, secret, amount }
-/

namespace IntentX

open Lib Text Bytes Abi

/-! ## Logs -/

section Logs

variable {log t : Json} {topic : String}

/-- The topics of a log, if they are an array. -/
def topicsOf (log : Json) : Option (List Json) := (log.get "topics").bind (·.asArray)

/-- The log of an event with this signature. -/
def HasTopic (topic : String) (log : Json) : Prop := ∃ topics, topicsOf log = some (.string topic :: topics)

/-- The data of a log, in hexadecimal. -/
def HasData (log : Json) (data : Bytes) : Prop :=
  ∃ text, log.get "data" = some (.string text) ∧ hexDecode (strip0x text) = some data

theorem bind_topics {β : Type} (log : Json) (f : List Json → Option β) :
    ((log.get "topics").bind fun json => json.asArray.bind f) = (topicsOf log).bind f :=
  (Option.bind_assoc _ _ _).symm

theorem asStr_eq_some_iff {s : String} : t.asStr = some s ↔ t = .string s := by
  cases t <;> simp [Json.asStr]

theorem asStr_eq_iff (htopic : topic ≠ "") : t.asStr.getD "" = topic ↔ t = .string topic := by
  cases t with
  | string s => simp [Json.asStr]
  | _ => simp [Json.asStr, htopic.symm]

theorem hexValue_hexDigit {n : Nat} (h : n < 16) : hexValue (hexDigit n) = some n := by
  have hall : ∀ n < 16, hexValue (hexDigit n) = some n := by decide +kernel
  exact hall n h

theorem hexDecode_digits_of (data : Bytes) :
    hexDecode (data.flatMap fun x => [hexDigit (x.toNat / 16), hexDigit (x.toNat % 16)]) = some data := by
  induction data with
  | nil => rfl
  | cons b data ih =>
    have hb := b.toNat_lt
    have hbyte : 16 * (b.toNat / 16) + b.toNat % 16 = b.toNat := by omega
    rw [List.flatMap_cons, List.cons_append, List.cons_append, List.nil_append, hexDecode,
      hexValue_hexDigit (by omega), hexValue_hexDigit (by omega), ih]
    simp only [Option.bind_eq_bind, Option.bind_some, hbyte, UInt8.ofNat_toNat]
    rfl

/-- What is written in hexadecimal is read back. -/
theorem hexDecode_toHex (data : Bytes) : hexDecode (strip0x ("0x" ++ toHex data)) = some data := by
  have hlist : ("0x" ++ toHex data).toList =
      '0' :: 'x' :: data.flatMap fun x => [hexDigit (x.toNat / 16), hexDigit (x.toNat % 16)] := by
    simp [toHex]
  rw [strip0x, hlist]
  exact hexDecode_digits_of data

theorem dataBytes_eq {text : String} {data : Bytes} (h : hexDecode (strip0x text) = some data) :
    dataBytes text = data := by
  rw [dataBytes, h]
  rfl

end Logs

/-! ## LayerZero: `PacketSent` -/

namespace LayerZero

/-- A packet: the header of 81 bytes, and what follows it. -/
structure Packet where
  version : UInt8
  nonce : UInt64
  srcEid : UInt32
  sender : Vector UInt8 32
  dstEid : UInt32
  receiver : Vector UInt8 32
  rest : Bytes

def Packet.encode (p : Packet) : Bytes :=
  [p.version] ++ toBeBytes 8 p.nonce.toNat ++ toBeBytes 4 p.srcEid.toNat ++ p.sender.toList ++
    toBeBytes 4 p.dstEid.toNat ++ p.receiver.toList ++ p.rest

/-- The data of the event: two offsets and the address, and behind them the packet and the options. -/
def encodePacketSent (packet options : Bytes) (sendLibrary : Vector UInt8 20) : Bytes :=
  word 96 ++ (word (96 + (dynamic packet).length) ++ (padLeft sendLibrary.toList ++
    (dynamic packet ++ dynamic options)))

section PacketSent

variable {log receipt : Json} {logs before after : List Json} {packet : Packet} {options : Bytes}
  {sendLibrary : Vector UInt8 20}

theorem parseLogs_none (h : topicsOf log = none) : parseLogs (log :: logs) = none := by
  rw [parseLogs]
  simp only [Option.bind_eq_bind, bind_topics, h, Option.bind_none]

theorem parseLogs_no_topics (h : topicsOf log = some []) : parseLogs (log :: logs) = parseLogs logs := by
  rw [parseLogs]
  simp only [Option.bind_eq_bind, bind_topics, h, Option.bind_some]

theorem parseLogs_topic {topic0 : Json} {topics : List Json} (h : topicsOf log = some (topic0 :: topics)) :
    parseLogs (log :: logs) = if topic0.asStr.getD "" ≠ packetSentTopic then parseLogs logs
      else (log.get "data").bind fun json =>
        let data := dataBytes (json.asStr.getD "")
        if data.length < 96 then parseLogs logs
        else if (data.drop 64).length < 81 then parseLogs logs
        else some (readPacket (data.drop 64)) := by
  rw [parseLogs]
  simp only [Option.bind_eq_bind, bind_topics, h, Option.bind_some]

/-- A log with other topics is skipped. -/
theorem parseLogs_skip (h : topicsOf log ≠ none) (hnot : ¬ HasTopic packetSentTopic log) :
    parseLogs (log :: logs) = parseLogs logs := by
  obtain ⟨topics, htopics⟩ := Option.ne_none_iff_exists'.1 h
  cases topics with
  | nil => exact parseLogs_no_topics htopics
  | cons topic0 rest =>
    rw [parseLogs_topic htopics]
    refine if_pos fun heq => hnot ⟨rest, ?_⟩
    rw [htopics, (asStr_eq_iff (by decide)).1 heq]

/-- Of an event with data of some length, what stands 64 bytes behind its beginning is taken for the packet. -/
theorem parseLogs_event {data : Bytes} (htopic : HasTopic packetSentTopic log) (hdata : HasData log data)
    (hlen : 145 ≤ data.length) : parseLogs (log :: logs) = some (readPacket (data.drop 64)) := by
  obtain ⟨topics, htopics⟩ := htopic
  obtain ⟨text, hget, hhex⟩ := hdata
  have hbytes : dataBytes ((Json.string text).asStr.getD "") = data := dataBytes_eq hhex
  have htopic : ¬ (Json.string packetSentTopic).asStr.getD "" ≠ packetSentTopic := not_not_intro rfl
  rw [parseLogs_topic htopics, if_neg htopic, hget]
  simp only [Option.bind_some, hbytes]
  rw [if_neg (by omega), if_neg (by rw [List.length_drop]; omega)]

/-- The logs before an event are skipped, or one of them ends the search. -/
theorem parseLogs_append (hbefore : ∀ log ∈ before, ¬ HasTopic packetSentTopic log) :
    parseLogs (before ++ logs) = if ∀ log ∈ before, topicsOf log ≠ none then parseLogs logs else none := by
  induction before with
  | nil => rw [if_pos nofun, List.nil_append]
  | cons log before ih =>
    have hrest := ih fun l hl => hbefore l (List.mem_cons_of_mem _ hl)
    rw [List.cons_append]
    by_cases htopics : topicsOf log = none
    · rw [parseLogs_none htopics, if_neg fun h => h log List.mem_cons_self htopics]
    · rw [parseLogs_skip htopics (hbefore log List.mem_cons_self), hrest]
      simp only [List.forall_mem_cons, htopics, ne_eq, not_false_eq_true, true_and]

theorem length_encode (p : Packet) : p.encode.length = 81 + p.rest.length := by
  simp [Packet.encode, length_toBeBytes]
  omega

theorem drop_encodePacketSent (packet options : Bytes) (sendLibrary : Vector UInt8 20) :
    (encodePacketSent packet options sendLibrary).drop 64 =
      padLeft sendLibrary.toList ++ (word packet.length ++ (packet ++ List.replicate (padding packet.length) 0 ++
        dynamic options)) := by
  have h : (word 96 ++ word (96 + (dynamic packet).length)).length = 64 := by simp
  rw [encodePacketSent, ← List.append_assoc, List.drop_left' h]
  simp [dynamic]

/-- Four bytes in the middle of a word. -/
theorem fromBeBytes_slice_word (n : Nat) (rest : Bytes) :
    fromBeBytes (slice (word n ++ rest) 13 17) = n / 256 ^ 15 % 2 ^ 32 := by
  have hbytes : slice (word n ++ rest) 13 17 = [13, 14, 15, 16].map fun i => .ofNat (n / 256 ^ (31 - i)) := rfl
  have hdiv : ∀ k, n / 256 ^ (15 + k) = n / 256 ^ 15 / 256 ^ k := by
    intro k
    rw [Nat.pow_add, Nat.div_div_eq_div_mul]
  have h₁ := hdiv 1
  have h₂ := hdiv 2
  have h₃ := hdiv 3
  rw [hbytes]
  simp only [fromBeBytes, List.map_cons, List.map_nil, List.foldl_cons, List.foldl_nil, UInt8.toNat_ofNat']
  show 256 * (256 * (256 * (256 * 0 + n / 256 ^ 18 % 256) + n / 256 ^ 17 % 256) + n / 256 ^ 16 % 256) +
    n / 256 ^ 15 % 256 = _
  omega

theorem slice_append {front bs : Bytes} {i j : Nat} (h : front.length = 32) :
    slice (front ++ bs) (32 + i) (32 + j) = slice bs i j := by
  rw [slice, slice, ← h, List.take_length_add_append, List.drop_length_add_append]

/-- What is read off the data: zeros of the word of the address and its first byte, and some bytes of the length
of the packet. -/
theorem readPacket_drop (packet options : Bytes) (sendLibrary : Vector UInt8 20) :
    (readPacket ((encodePacketSent packet options sendLibrary).drop 64)).nonce = 0 ∧
      (readPacket ((encodePacketSent packet options sendLibrary).drop 64)).srcEid.toNat = sendLibrary[0].toNat ∧
      (readPacket ((encodePacketSent packet options sendLibrary).drop 64)).dstEid.toNat =
        packet.length / 256 ^ 15 % 2 ^ 32 := by
  have hpad : padLeft sendLibrary.toList =
      (List.replicate 12 0 : Bytes) ++ sendLibrary[0] :: sendLibrary.toList.drop 1 := by
    have hpos : 0 < sendLibrary.toList.length := by simp
    have hcons := List.drop_eq_getElem_cons hpos
    rw [padLeft, sendLibrary.length_toList, ← Vector.getElem_toList hpos]
    exact congrArg _ hcons
  have hlen : (padLeft sendLibrary.toList).length = 32 := length_padLeft (by simp)
  rw [drop_encodePacketSent]
  refine ⟨?_, ?_, ?_⟩
  · show UInt64.ofNat (fromBeBytes (slice _ 1 9)) = 0
    rw [hpad]
    rfl
  · show (UInt32.ofNat (fromBeBytes (slice _ 9 13))).toNat = _
    have hslice : ∀ (b : UInt8) (bs rest : Bytes),
        slice ((List.replicate 12 0 : Bytes) ++ b :: bs ++ rest) 9 13 = [0, 0, 0, b] := fun _ _ _ => rfl
    have hb := sendLibrary[0].toNat_lt
    have hvalue : fromBeBytes [0, 0, 0, sendLibrary[0]] = sendLibrary[0].toNat := by
      simp [fromBeBytes]
    rw [hpad, hslice, hvalue, UInt32.toNat_ofNat']
    omega
  · show (UInt32.ofNat (fromBeBytes (slice _ (32 + 13) (32 + 17)))).toNat = _
    rw [slice_append hlen, fromBeBytes_slice_word, UInt32.toNat_ofNat']
    omega

/-- The first event of a receipt that is read, if a search comes to it. -/
theorem parsePacketSent_eq (hlogs : receipt.get "logs" = some (.array (before ++ log :: after)))
    (hbefore : ∀ log ∈ before, ¬ HasTopic packetSentTopic log) (htopic : HasTopic packetSentTopic log)
    (hdata : HasData log (encodePacketSent packet.encode options sendLibrary)) :
    parsePacketSent receipt = if ∀ log ∈ before, topicsOf log ≠ none then
      some (readPacket ((encodePacketSent packet.encode options sendLibrary).drop 64)) else none := by
  have hlen : 145 ≤ (encodePacketSent packet.encode options sendLibrary).length := by
    have hpacket := length_encode packet
    simp only [encodePacketSent, List.length_append, length_word, length_dynamic, padLeft,
      List.length_replicate, Vector.length_toList]
    omega
  unfold parsePacketSent
  simp only [Option.bind_eq_bind, hlogs, Option.bind_some, Json.asArray]
  rw [parseLogs_append hbefore, parseLogs_event htopic hdata hlen]

/-- The nonce and the two endpoints of the packet are read if and only if every log before the event has topics,
and they are what stands where they are looked for: a nonce of zero, the first byte of the library for the
source, and for the destination zero too, of any packet shorter than `256 ^ 15` bytes. -/
theorem packetSent_read_iff (hlogs : receipt.get "logs" = some (.array (before ++ log :: after)))
    (hbefore : ∀ log ∈ before, ¬ HasTopic packetSentTopic log) (htopic : HasTopic packetSentTopic log)
    (hdata : HasData log (encodePacketSent packet.encode options sendLibrary)) :
    (∃ m, parsePacketSent receipt = some m ∧ m.nonce = packet.nonce ∧ m.srcEid = packet.srcEid ∧
      m.dstEid = packet.dstEid) ↔
      (∀ log ∈ before, topicsOf log ≠ none) ∧ packet.nonce = 0 ∧
        packet.srcEid.toNat = sendLibrary[0].toNat ∧
        packet.dstEid.toNat = packet.encode.length / 256 ^ 15 % 2 ^ 32 := by
  obtain ⟨hnonce, hsrc, hdst⟩ := readPacket_drop packet.encode options sendLibrary
  rw [parsePacketSent_eq hlogs hbefore htopic hdata]
  by_cases htopics : ∀ log ∈ before, topicsOf log ≠ none
  · rw [if_pos htopics, and_iff_right htopics]
    constructor
    · rintro ⟨m, ⟨⟩, hn, hs, hd⟩
      rw [hnonce] at hn
      rw [← hn, ← hs, ← hd]
      exact ⟨rfl, hsrc, hdst⟩
    · rintro ⟨hn, hs, hd⟩
      refine ⟨_, rfl, hnonce.trans hn.symm, ?_, ?_⟩
      · exact UInt32.toNat_inj.1 (hsrc.trans hs.symm)
      · exact UInt32.toNat_inj.1 (hdst.trans hd.symm)
  · rw [if_neg htopics]
    exact iff_of_false nofun fun h => htopics h.1

/-! ### Two packets -/

def demoLibrary : Vector UInt8 20 :=
  ⟨(toBeBytes 20 0x975bcd720be66659e3eb3c0e4f1866a3020e493a).toArray, by simp [length_toBeBytes]⟩

def demoPacket (nonce : UInt64) (srcEid dstEid : UInt32) : Packet :=
  ⟨1, nonce, srcEid, .replicate 32 10, dstEid, .replicate 32 11, List.replicate 72 12⟩

/-- Of a transfer of tokens. -/
def otherLog : Json := .object
  [("topics", .array [.string "0xddf252ad1be2c89b69c2b068fc378daa952ba7f163c4a11628f55a4df523b3ef"]),
    ("data", .string "0x")]

def sentLog (packet : Packet) : Json := .object [("topics", .array [.string packetSentTopic]),
  ("data", .string ("0x" ++ toHex (encodePacketSent packet.encode [0, 3] demoLibrary)))]

def sentReceipt (packet : Packet) : Json := .object [("logs", .array [otherLog, sentLog packet])]

theorem otherLog_other : ∀ log ∈ [otherLog], ¬ HasTopic packetSentTopic log ∧ topicsOf log ≠ none := by
  intro log hlog
  obtain rfl := List.mem_singleton.1 hlog
  refine ⟨?_, nofun⟩
  rintro ⟨topics, htopics⟩
  obtain ⟨heq, -⟩ := List.cons.inj (Option.some.inj htopics)
  exact absurd (Json.string.inj heq) (by decide +kernel)

theorem sentReceipt_logs (packet : Packet) :
    (sentReceipt packet).get "logs" = some (.array ([otherLog] ++ sentLog packet :: [])) := by
  simp [sentReceipt, Json.get]

theorem sentLog_topic (packet : Packet) : HasTopic packetSentTopic (sentLog packet) :=
  ⟨[], by simp [sentLog, topicsOf, Json.get, Json.asArray]⟩

theorem sentLog_data (packet : Packet) :
    HasData (sentLog packet) (encodePacketSent packet.encode [0, 3] demoLibrary) :=
  ⟨_, by simp [sentLog, Json.get, List.lookup_cons], hexDecode_toHex _⟩

/-- A nonce of zero, from endpoint `0x97` to none. -/
theorem packetSent_read : ∃ m, parsePacketSent (sentReceipt (demoPacket 0 151 0)) = some m ∧ m.nonce = 0 ∧
    m.srcEid = 151 ∧ m.dstEid = 0 :=
  (packetSent_read_iff (sentReceipt_logs (demoPacket 0 151 0)) (fun log h => (otherLog_other log h).1)
    (sentLog_topic _) (sentLog_data _)).2
    ⟨fun log h => (otherLog_other log h).2, rfl, by decide +kernel, by decide +kernel⟩

/-- The seventh packet from Ethereum to Arbitrum. -/
theorem packetSent_misread :
    (∀ log ∈ [otherLog], ¬ HasTopic packetSentTopic log ∧ topicsOf log ≠ none) ∧
    HasTopic packetSentTopic (sentLog (demoPacket 7 30101 30110)) ∧
    HasData (sentLog (demoPacket 7 30101 30110))
      (encodePacketSent (demoPacket 7 30101 30110).encode [0, 3] demoLibrary) ∧
    ¬ ∃ m, parsePacketSent (sentReceipt (demoPacket 7 30101 30110)) = some m ∧ m.nonce = 7 ∧
      m.srcEid = 30101 ∧ m.dstEid = 30110 := by
  have hdata := sentLog_data (demoPacket 7 30101 30110)
  refine ⟨otherLog_other, sentLog_topic _, hdata, ?_⟩
  rw [parsePacketSent_eq (sentReceipt_logs _) (fun log h => (otherLog_other log h).1) (sentLog_topic _) hdata,
    if_pos fun log h => (otherLog_other log h).2]
  rintro ⟨m, ⟨⟩, hnonce, -⟩
  rw [(readPacket_drop _ _ _).1] at hnonce
  exact absurd hnonce (by decide)

end PacketSent

end LayerZero

/-! ## Wormhole: `LogMessagePublished` -/

namespace Wormhole

/-- The data of the event: the payload stands behind the words. -/
structure Published where
  sequence : Nat
  nonce : Nat
  payload : Bytes
  consistencyLevel : Nat

def published (data : Bytes) : Option Published := do
  let (sequence, rest) ← (uint 64).run data
  let (nonce, rest) ← (uint 32).run rest
  let (offset, rest) ← (uint 256).run rest
  let (consistencyLevel, _) ← (uint 8).run rest
  return ⟨sequence, nonce, ← bytesAt data offset, consistencyLevel⟩

/-- The event of a log, if it is well-formed and comes from the contract, with the text of its indexed sender. -/
def publishedBy (contract : Bytes) (log : Json) : Option (String × Published) := do
  let text ← (← log.get "address").asStr
  guard (hexDecode (strip0x text) = some contract)
  match ← topicsOf log with
  | [topic0, topic1] =>
    guard (topic0.asStr = some logMessagePublishedTopic)
    let sender ← topic1.asStr
    let _ ← address.whole (← hexDecode (strip0x sender))
    let data ← hexDecode (strip0x (← (← log.get "data").asStr))
    return (sender, ← published data)
  | _ => none

def logsOf (receipt : Json) : List Json := ((receipt.get "logs").bind (·.asArray)).getD []

/-- What `parse_lock_logs` is to return. -/
def firstPublished (contract : Bytes) (sourceChainId : UInt16) (logs : List Json) : Option WormholeMessage :=
  (logs.findSome? (publishedBy contract)).map fun (sender, event) =>
    ⟨sourceChainId, String.ofList (strip0x sender), .ofNat event.sequence⟩

/-- The logs that the search goes on after: without topics, with another first topic, or with less than a word
of data. -/
inductive PassedOver (log : Json) : Prop where
  | empty (htopics : topicsOf log = some [])
  | other {topic0 : Json} {topics : List Json} (htopics : topicsOf log = some (topic0 :: topics))
      (hne : topic0 ≠ .string logMessagePublishedTopic)
  | short {topic0 sender data : Json} {topics : List Json}
      (htopics : topicsOf log = some (topic0 :: sender :: topics)) (hdata : log.get "data" = some data)
      (hlen : (dataBytes (data.asStr.getD "")).length < 32)

/-- What a log is taken for that the search ends at: nothing, if its topics, the second of them or its data are
missing, and else the second topic with the first number of the data. -/
def takenFor (sourceChainId : UInt16) (log : Json) : Option WormholeMessage := do
  let sender ← (← topicsOf log)[1]?
  let data := dataBytes ((← log.get "data").asStr.getD "")
  return ⟨sourceChainId, String.ofList (strip0x (sender.asStr.getD "")),
    .ofNat (fromBeBytes (slice data 24 32))⟩

section LockLogs

variable {contract : Bytes} {sourceChainId : UInt16} {log : Json} {logs before after : List Json}

theorem parseLogs_topic {topic0 : Json} {topics : List Json} (h : topicsOf log = some (topic0 :: topics)) :
    parseLogs sourceChainId (log :: logs) =
      if topic0.asStr.getD "" ≠ logMessagePublishedTopic then parseLogs sourceChainId logs
      else topics.head?.bind fun sender => (log.get "data").bind fun json =>
        let data := dataBytes (json.asStr.getD "")
        if data.length < 32 then parseLogs sourceChainId logs
        else some ⟨sourceChainId, String.ofList (strip0x (sender.asStr.getD "")),
          .ofNat (fromBeBytes (slice data 24 32))⟩ := by
  rw [parseLogs]
  simp only [Option.bind_eq_bind, bind_topics, h, Option.bind_some]

theorem parseLogs_passedOver (h : PassedOver log) :
    parseLogs sourceChainId (log :: logs) = parseLogs sourceChainId logs := by
  cases h with
  | empty htopics =>
    rw [parseLogs]
    simp only [Option.bind_eq_bind, bind_topics, htopics, Option.bind_some]
  | other htopics hne =>
    rw [parseLogs_topic htopics, if_pos fun heq => hne ((asStr_eq_iff (by decide)).1 heq)]
  | short htopics hdata hlen =>
    rw [parseLogs_topic htopics, hdata]
    simp only [List.head?_cons, Option.bind_some, if_pos hlen, ite_self]

theorem parseLogs_none (h : topicsOf log = none) : parseLogs sourceChainId (log :: logs) = none := by
  rw [parseLogs]
  simp only [Option.bind_eq_bind, bind_topics, h, Option.bind_none]

theorem parseLogs_takenFor (h : ¬ PassedOver log) :
    parseLogs sourceChainId (log :: logs) = takenFor sourceChainId log := by
  unfold takenFor
  cases htopics : topicsOf log with
  | none => rw [parseLogs_none htopics]; rfl
  | some topics =>
    cases topics with
    | nil => exact absurd (.empty htopics) h
    | cons topic0 topics =>
      by_cases heq : topic0 = .string logMessagePublishedTopic
      · subst heq
        have htopic : ¬ (Json.string logMessagePublishedTopic).asStr.getD "" ≠ logMessagePublishedTopic :=
          not_not_intro rfl
        rw [parseLogs_topic htopics, if_neg htopic]
        cases topics with
        | nil => rfl
        | cons sender topics =>
          cases hdata : log.get "data" with
          | none => rfl
          | some data =>
            have hlen : ¬ (dataBytes (data.asStr.getD "")).length < 32 := fun hlt =>
              h (.short htopics hdata hlt)
            simp only [List.head?_cons, Option.bind_some, if_neg hlen]
            rfl
      · exact absurd (.other htopics heq) h

/-- The search comes to the first log that is not passed over. -/
theorem parseLogs_append (h : ∀ log ∈ before, PassedOver log) :
    parseLogs sourceChainId (before ++ logs) = parseLogs sourceChainId logs := by
  induction before with
  | nil => rfl
  | cons log before ih =>
    rw [List.cons_append, parseLogs_passedOver (h log List.mem_cons_self)]
    exact ih fun l hl => h l (List.mem_cons_of_mem _ hl)

theorem topics_of_publishedBy {sender : String} {event : Published}
    (h : publishedBy contract log = some (sender, event)) :
    topicsOf log = some [.string logMessagePublishedTopic, .string sender] ∧
      ∃ data, HasData log data ∧ published data = some event := by
  unfold publishedBy at h
  simp only [Option.bind_eq_bind, Option.bind_eq_some_iff] at h
  obtain ⟨_, _, text, _, _, _, topics, htopics, h⟩ := h
  match topics, h with
  | [topic0, topic1], h =>
    simp only [Option.bind_eq_some_iff] at h
    obtain ⟨_, htopic, s, hsender, _, _, _, _, json, hjson, text, htext, data, hdata, event', hevent, heq⟩ := h
    have hs : s = sender := congrArg Prod.fst (Option.some.inj heq)
    have he : event' = event := congrArg Prod.snd (Option.some.inj heq)
    have htopic' : topic0.asStr = some logMessagePublishedTopic := (Option.guard_eq_some' ()).1 htopic
    subst hs he
    rw [asStr_eq_some_iff.1 htopic', asStr_eq_some_iff.1 hsender] at htopics
    exact ⟨htopics, data, ⟨text, by rw [hjson, asStr_eq_some_iff.1 htext], hdata⟩, hevent⟩

/-- The sequence is what stands at the end of the first word. -/
theorem sequence_of_published {data : Bytes} {event : Published} (h : published data = some event) :
    32 ≤ data.length ∧ UInt64.ofNat (fromBeBytes (slice data 24 32)) = .ofNat event.sequence := by
  unfold published at h
  simp only [Option.bind_eq_bind, Option.bind_eq_some_iff] at h
  obtain ⟨⟨n, rest⟩, huint, _, _, _, _, _, _, _, _, heq⟩ := h
  obtain ⟨hlen, rfl, -⟩ := uint_run huint
  obtain rfl := Option.some.inj heq
  refine ⟨hlen, ofBeBytes_drop (n := 24) ?_⟩
  rw [List.length_take]
  omega

/-- A well-formed event is not passed over. -/
theorem not_passedOver_of_publishedBy {sender : String} {event : Published}
    (h : publishedBy contract log = some (sender, event)) : ¬ PassedOver log := by
  obtain ⟨htopics, data, ⟨text, hget, hhex⟩, hpublished⟩ := topics_of_publishedBy h
  obtain ⟨hlen, -⟩ := sequence_of_published hpublished
  intro hpassed
  cases hpassed with
  | empty htopics' => exact nomatch htopics.symm.trans htopics'
  | other htopics' hne =>
    cases htopics.symm.trans htopics'
    exact hne rfl
  | short htopics' hdata hshort =>
    cases hget.symm.trans hdata
    have hbytes : dataBytes ((Json.string text).asStr.getD "") = data := dataBytes_eq hhex
    rw [hbytes] at hshort
    omega

/-- It is taken for what it is. -/
theorem takenFor_of_publishedBy {sender : String} {event : Published}
    (h : publishedBy contract log = some (sender, event)) : takenFor sourceChainId log =
      some ⟨sourceChainId, String.ofList (strip0x sender), .ofNat event.sequence⟩ := by
  obtain ⟨htopics, data, ⟨text, hget, hhex⟩, hpublished⟩ := topics_of_publishedBy h
  obtain ⟨-, hsequence⟩ := sequence_of_published hpublished
  have hbytes : dataBytes ((Json.string text).asStr.getD "") = data := dataBytes_eq hhex
  unfold takenFor
  simp only [Option.bind_eq_bind, htopics, Option.bind_some, hget, hbytes, hsequence]
  rfl

theorem firstPublished_append (h : ∀ log ∈ before, PassedOver log) :
    firstPublished contract sourceChainId (before ++ logs) = firstPublished contract sourceChainId logs := by
  have hnone : before.findSome? (publishedBy contract) = none := by
    refine List.findSome?_eq_none_iff.2 fun log hlog => ?_
    cases hpublished : publishedBy contract log with
    | none => rfl
    | some event => exact absurd (h log hlog) (not_passedOver_of_publishedBy hpublished)
  rw [firstPublished, firstPublished, List.findSome?_append, hnone, Option.none_or]

theorem parseLockLogs_eq (receipt : Json) (sourceChainId : UInt16) :
    parseLockLogs receipt sourceChainId = parseLogs sourceChainId (logsOf receipt) := by
  unfold parseLockLogs logsOf
  cases hlogs : receipt.get "logs" with
  | none => rfl
  | some json =>
    simp only [Option.bind_eq_bind, Option.bind_some]
    cases json.asArray <;> rfl

/-- All logs are passed over, or there is a first one that is not. -/
theorem passedOver_or_split (logs : List Json) : (∀ log ∈ logs, PassedOver log) ∨
    ∃ before log after, logs = before ++ log :: after ∧ (∀ l ∈ before, PassedOver l) ∧ ¬ PassedOver log := by
  induction logs with
  | nil => exact .inl nofun
  | cons log logs ih =>
    by_cases hlog : PassedOver log
    · rcases ih with hall | ⟨before, stop, after, rfl, hbefore, hstop⟩
      · exact .inl (List.forall_mem_cons.2 ⟨hlog, hall⟩)
      · exact .inr ⟨log :: before, stop, after, rfl, List.forall_mem_cons.2 ⟨hlog, hbefore⟩, hstop⟩
    · exact .inr ⟨[], log, logs, rfl, nofun, hlog⟩

theorem attributed_split (hbefore : ∀ l ∈ before, PassedOver l) (hlog : ¬ PassedOver log) :
    parseLogs sourceChainId (before ++ log :: after) =
        firstPublished contract sourceChainId (before ++ log :: after) ↔
      publishedBy contract log ≠ none ∨
        firstPublished contract sourceChainId after = takenFor sourceChainId log := by
  rw [parseLogs_append hbefore, firstPublished_append hbefore, parseLogs_takenFor hlog]
  cases hpublished : publishedBy contract log with
  | none =>
    rw [firstPublished, List.findSome?_cons, hpublished]
    show takenFor sourceChainId log = firstPublished contract sourceChainId after ↔ _
    rw [or_iff_right fun h => h rfl, eq_comm]
  | some event =>
    obtain ⟨sender, event⟩ := event
    rw [takenFor_of_publishedBy hpublished, firstPublished, List.findSome?_cons, hpublished]
    exact iff_of_true rfl (.inl nofun)

/-- The message is that of the first well-formed event of the contract, and there is none without one, if and
only if of the first log that is not passed over one of two things holds: it is such an event itself, or the
first such event after it says the same as it is taken for, and there is none if it is taken for nothing. -/
theorem lockLogs_attributed_iff (contract : Bytes) (sourceChainId : UInt16) (receipt : Json) :
    parseLockLogs receipt sourceChainId = firstPublished contract sourceChainId (logsOf receipt) ↔
      ∀ before log after, logsOf receipt = before ++ log :: after → (∀ l ∈ before, PassedOver l) →
        ¬ PassedOver log → publishedBy contract log ≠ none ∨
          firstPublished contract sourceChainId after = takenFor sourceChainId log := by
  rw [parseLockLogs_eq]
  constructor
  · intro h before log after hlogs hbefore hlog
    rw [hlogs] at h
    exact (attributed_split hbefore hlog).1 h
  · intro h
    rcases passedOver_or_split (logsOf receipt) with hall | ⟨before, log, after, hlogs, hbefore, hlog⟩
    · have hparse : parseLogs sourceChainId (logsOf receipt ++ []) = parseLogs sourceChainId [] :=
        parseLogs_append hall
      have hfirst : firstPublished contract sourceChainId (logsOf receipt ++ []) =
          firstPublished contract sourceChainId [] := firstPublished_append hall
      rw [List.append_nil] at hparse hfirst
      rw [hparse, hfirst]
      rfl
    · rw [hlogs]
      exact (attributed_split hbefore hlog).2 (h before log after hlogs hbefore hlog)

end LockLogs

/-! ### A receipt with a foreign event -/

section Demo

def coreBridgeEthereum : String := "0x98f3c9e6E3fAce36bAAd05FE09d375Ef1464288B"

/-- The data of an event with a payload of three bytes. -/
def publishedData (sequence : Nat) : Bytes :=
  word sequence ++ (word 0 ++ (word 128 ++ (word 1 ++ dynamic [1, 2, 3])))

def publishedLog (address sender : String) (sequence : Nat) : Json := .object [("address", .string address),
  ("topics", .array [.string logMessagePublishedTopic, .string sender]),
  ("data", .string ("0x" ++ toHex (publishedData sequence)))]

/-- The event of the token bridge, through the core bridge. -/
def coreLog : Json := publishedLog coreBridgeEthereum
  "0x0000000000000000000000003ee18b2214aff97000d974cf647e7c347e8fa585" 42

/-- Another contract emits an event of the same signature. -/
def foreignLog : Json := publishedLog "0x00000000000000000000000000000000deadbeef"
  "0x00000000000000000000000000000000000000000000000000000000deadbeef" 7

def receiptOf (logs : List Json) : Json := .object [("logs", .array logs)]

theorem published_publishedData {sequence : Nat} (h : sequence < 2 ^ 64) :
    published (publishedData sequence) = some ⟨sequence, 0, [1, 2, 3], 1⟩ := by
  have hsequence : (uint 64).run (publishedData sequence) = _ := reads_uint h (by decide) _
  have hnonce : (uint 32).run (word 0 ++ (word 128 ++ (word 1 ++ dynamic [1, 2, 3]))) = _ :=
    reads_uint (by decide) (by decide) _
  have hoffset : (uint 256).run (word 128 ++ (word 1 ++ dynamic [1, 2, 3])) = _ :=
    reads_uint (by decide) (by decide) _
  have hlevel : (uint 8).run (word 1 ++ dynamic [1, 2, 3]) = _ := reads_uint (by decide) (by decide) _
  have hpayload : bytesAt (publishedData sequence) 128 = some [1, 2, 3] := by
    have hfront : (word sequence ++ (word 0 ++ (word 128 ++ word 1))).length = 128 := by simp
    have hfound : bytesAt (word sequence ++ (word 0 ++ (word 128 ++ word 1)) ++ (dynamic [1, 2, 3] ++ [])) _ = _ :=
      bytesAt_append (by decide)
    rw [hfront] at hfound
    simpa [publishedData] using hfound
  unfold published
  simp only [Option.bind_eq_bind, hsequence, Option.bind_some, hnonce, hoffset, hlevel, hpayload]
  rfl

theorem publishedBy_publishedLog {address sender : String} {contract a : Bytes} {sequence : Nat}
    (haddress : hexDecode (strip0x address) = some contract) (hlen : a.length = 20)
    (hsender : hexDecode (strip0x sender) = some (padLeft a)) (hsequence : sequence < 2 ^ 64) :
    publishedBy contract (publishedLog address sender sequence) = some (sender, ⟨sequence, 0, [1, 2, 3], 1⟩) := by
  have hwhole : Abi.address.whole (padLeft a) = some a := (reads_address hlen).whole
  simp [publishedBy, publishedLog, Json.get, List.lookup_cons, topicsOf, Json.asStr, Json.asArray, haddress, hsender,
    hwhole, hexDecode_toHex, published_publishedData hsequence, guard]

theorem publishedBy_coreLog : publishedBy (dataBytes coreBridgeEthereum) coreLog =
    some ("0x0000000000000000000000003ee18b2214aff97000d974cf647e7c347e8fa585", ⟨42, 0, [1, 2, 3], 1⟩) :=
  publishedBy_publishedLog (a := dataBytes "0x3ee18b2214aff97000d974cf647e7c347e8fa585") (by decide +kernel)
    (by decide +kernel) (by decide +kernel) (by decide)

theorem publishedBy_foreignLog : publishedBy (dataBytes "0x00000000000000000000000000000000deadbeef") foreignLog =
    some ("0x00000000000000000000000000000000000000000000000000000000deadbeef", ⟨7, 0, [1, 2, 3], 1⟩) :=
  publishedBy_publishedLog (a := dataBytes "0x00000000000000000000000000000000deadbeef") (by decide +kernel)
    (by decide +kernel) (by decide +kernel) (by decide)

/-- A foreign event in front is taken for the lock's, and a log without topics ends the search. -/
theorem lockLogs_misattributed :
    parseLockLogs (receiptOf [foreignLog, coreLog]) 2 ≠
        firstPublished (dataBytes coreBridgeEthereum) 2 (logsOf (receiptOf [foreignLog, coreLog])) ∧
      parseLockLogs (receiptOf [.null, coreLog]) 2 ≠
        firstPublished (dataBytes coreBridgeEthereum) 2 (logsOf (receiptOf [.null, coreLog])) := by
  have hlogs : ∀ logs, logsOf (receiptOf logs) = logs := fun logs => by
    simp [logsOf, receiptOf, Json.get, Json.asArray]
  have hcore : ∀ log, publishedBy (dataBytes coreBridgeEthereum) log = none →
      firstPublished (dataBytes coreBridgeEthereum) 2 [log, coreLog] =
        some ⟨2, "0000000000000000000000003ee18b2214aff97000d974cf647e7c347e8fa585", 42⟩ := by
    intro log hlog
    rw [firstPublished, List.findSome?_cons, hlog]
    dsimp only
    rw [List.findSome?_cons, publishedBy_coreLog]
    decide +kernel
  have hstop := not_passedOver_of_publishedBy publishedBy_foreignLog
  have htaken : takenFor 2 foreignLog = _ := takenFor_of_publishedBy publishedBy_foreignLog
  refine ⟨?_, ?_⟩
  · rw [parseLockLogs_eq, hlogs, hcore foreignLog (by decide +kernel), parseLogs_takenFor hstop, htaken]
    decide +kernel
  · rw [parseLockLogs_eq, hlogs, hcore .null rfl, parseLogs_none rfl]
    exact nofun

end Demo

end Wormhole

/-! ## The HTLC program: `FundsClaimed` -/

/-- `hexError` is the text of the error of `hex::decode`. -/
def extractSecretFromLogs (hexError : List Char → String) (logData : String) : Except HtlcError Secret :=
  match hexDecode (strip0x logData) with
  | none => .error (.InvalidState ("Invalid hex in claim log: " ++ hexError (strip0x logData)))
  | some data =>
    if h : data.length < 32 then
      .error (.InvalidState ("Claim log data too short: " ++ toString data.length ++ " bytes, need >= 32"))
    else .ok ⟨data.take 32, by rw [List.length_take]; omega⟩

/-- The event of the program, with the discriminator that Anchor puts in front. -/
structure FundsClaimed where
  discriminator : Vector UInt8 8
  htlc : Vector UInt8 32
  receiver : Vector UInt8 32
  secret : Secret
  amount : UInt64

/-- The fields in their order, the amount with the least significant byte first. -/
def FundsClaimed.encode (event : FundsClaimed) : Bytes :=
  event.discriminator.toList ++ (event.htlc.toList ++ (event.receiver.toList ++ (event.secret.1 ++
    (toBeBytes 8 event.amount.toNat).reverse)))

section Claims

variable {hexError : List Char → String} {text : String} {secret : Secret} {event : FundsClaimed}

/-- The secret is what the data begin with. -/
theorem extractSecret_ok_iff : extractSecretFromLogs hexError text = .ok secret ↔
    ∃ rest, hexDecode (strip0x text) = some (secret.1 ++ rest) := by
  unfold extractSecretFromLogs
  cases hhex : hexDecode (strip0x text) with
  | none => exact iff_of_false nofun fun ⟨rest, h⟩ => nomatch h
  | some data =>
    dsimp only
    split
    · next hlt =>
      refine iff_of_false nofun ?_
      rintro ⟨rest, h⟩
      have hlen := congrArg List.length (Option.some.inj h)
      rw [List.length_append, secret.2] at hlen
      omega
    · next hge =>
      rw [Except.ok.injEq, Subtype.ext_iff]
      constructor
      · intro h
        refine ⟨data.drop 32, ?_⟩
        rw [← h, List.take_append_drop]
      · rintro ⟨rest, h⟩
        obtain rfl := Option.some.inj h
        exact List.take_left' secret.2

/-- The documented slice begins with the receiver. -/
theorem drop_encode (event : FundsClaimed) : event.encode.drop 40 =
    event.receiver.toList ++ (event.secret.1 ++ (toBeBytes 8 event.amount.toNat).reverse) := by
  have hfront : (event.discriminator.toList ++ event.htlc.toList).length = 40 := by simp
  rw [FundsClaimed.encode, ← List.append_assoc, List.drop_left' hfront]

theorem extractSecret_slice_iff (h : hexDecode (strip0x text) = some (event.encode.drop 40)) :
    extractSecretFromLogs hexError text = .ok event.secret ↔ event.receiver.toList = event.secret.1 := by
  rw [extractSecret_ok_iff, h, drop_encode]
  constructor
  · rintro ⟨rest, heq⟩
    have hlen : event.receiver.toList.length = event.secret.1.length := by simp [event.secret.2]
    exact (List.append_inj (Option.some.inj heq) hlen).1
  · intro heq
    exact ⟨_, by rw [heq]⟩

/-- The secret is recovered from every event of an EVM chain, and from the slice of a `FundsClaimed` if and only
if it is the key of the receiver. -/
theorem extractSecret_iff (hexError : List Char → String) :
    (∀ (secret : Secret) rest text, hexDecode (strip0x text) = some (secret.1 ++ rest) →
      extractSecretFromLogs hexError text = .ok secret) ∧
    ∀ (event : FundsClaimed) text, hexDecode (strip0x text) = some (event.encode.drop 40) →
      (extractSecretFromLogs hexError text = .ok event.secret ↔ event.receiver.toList = event.secret.1) :=
  ⟨fun _ rest _ h => extractSecret_ok_iff.2 ⟨rest, h⟩, fun _ _ h => extractSecret_slice_iff h⟩

/-- A claim with a secret of sevens. -/
def demoClaim (receiver : Vector UInt8 32) : FundsClaimed where
  discriminator := .replicate 8 1
  htlc := .replicate 32 2
  receiver := receiver
  secret := ⟨List.replicate 32 7, rfl⟩
  amount := 100

def claimLog (event : FundsClaimed) : String := "0x" ++ toHex (event.encode.drop 40)

/-- The text for an odd number of digits, of which there are none below. -/
def demoHexError (_ : List Char) : String := "Odd number of digits"

/-- From an event of an EVM chain, and of a receiver whose key is the secret. -/
theorem demoClaim_recovered :
    extractSecretFromLogs demoHexError ("0x" ++ toHex (List.replicate 32 7 ++ [1, 2])) =
        .ok ⟨List.replicate 32 7, rfl⟩ ∧
      extractSecretFromLogs demoHexError (claimLog (demoClaim (.replicate 32 7))) =
        .ok (demoClaim (.replicate 32 7)).secret :=
  ⟨(extractSecret_iff demoHexError).1 ⟨List.replicate 32 7, rfl⟩ [1, 2] _ (hexDecode_toHex _),
    ((extractSecret_iff demoHexError).2 _ _ (hexDecode_toHex _)).2 (by decide)⟩

/-- Of any other receiver it is his key that is returned. -/
theorem demoClaim_not_recovered :
    hexDecode (strip0x (claimLog (demoClaim (.replicate 32 3)))) =
        some ((demoClaim (.replicate 32 3)).encode.drop 40) ∧
      extractSecretFromLogs demoHexError (claimLog (demoClaim (.replicate 32 3))) =
        .ok ⟨List.replicate 32 3, rfl⟩ ∧
      extractSecretFromLogs demoHexError (claimLog (demoClaim (.replicate 32 3))) ≠
        .ok (demoClaim (.replicate 32 3)).secret := by
  have hhex := hexDecode_toHex ((demoClaim (.replicate 32 3)).encode.drop 40)
  refine ⟨hhex, extractSecret_ok_iff.2 ⟨_, hhex.trans (congrArg some (drop_encode _))⟩, ?_⟩
  intro h
  exact absurd ((extractSecret_slice_iff hhex).1 h) (by decide)

end Claims

end IntentX
