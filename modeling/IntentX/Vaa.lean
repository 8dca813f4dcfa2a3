import IntentX.Bridges
import IntentX.Lib.Bytes
import Mathlib.Data.List.Perm.Subperm

/-!
# VAAs

`parse_vaa` and `verify_vaa` of `src/cross_chain/wormhole.rs`, and `build_vaa` of
`src/cross_chain/mock_guardian.rs`.  Every read of a byte or of a slice may fail, which is a panic.

    parseVaa b is Ok  ↔  b[0] = 1 and 6 + 66 * b[5] + 51 ≤ b.length              (parseVaa_exact)
    verifyVaa is Ok   ↔  at least 13 guardian indices, distinct and below 19     (verifyVaa_exact)
-/

namespace IntentX.Wormhole

open Lib Bytes Text

structure Vaa where
  bytes : List UInt8
  version : UInt8
  numSignatures : Nat
  emitterChain : UInt16
  emitterAddress : String
  sequence : UInt64
  payload : List UInt8
  deriving DecidableEq, Repr

/-- A panic, which is a read out of bounds, is `none`. -/
def parseVaa (bytes : List UInt8) : Option (Except BridgeError Vaa) :=
  if bytes.length < 57 then some (.error (.VerificationFailed "VAA too short"))
  else do
    let version ← bytes[0]?
    if version ≠ 1 then
      return .error (.VerificationFailed ("Unsupported VAA version: " ++ toString version.toNat))
    else
      let numSignatures := (← bytes[5]?).toNat
      let bodyOffset := 6 + numSignatures * 66
      if bytes.length < bodyOffset + 51 then
        return .error (.VerificationFailed "VAA body too short")
      else
        let body ← from? bytes bodyOffset
        let emitterChain := UInt16.ofNat (fromBeBytes [← body[8]?, ← body[9]?])
        let emitterAddress := String.ofList (hexEncode (← slice? body 10 42))
        let sequence := UInt64.ofNat (fromBeBytes (← slice? body 42 50))
        let payload ← from? body 51
        return .ok { bytes, version, numSignatures, emitterChain, emitterAddress, sequence, payload }

def guardianQuorum : Nat := 13

/-- The loop of `verify_vaa` from the `i`-th signature on. -/
def checkIndices (vaa : Vaa) (sigStart : Nat) : (left i : Nat) → (seen : List Bool) →
    Option (Except BridgeError Unit)
  | 0, _, _ => some (.ok ())
  | left + 1, i, seen => do
    let idx := (← vaa.bytes[sigStart + i * 66]?).toNat
    if idx ≥ 19 then
      return .error (.VerificationFailed ("Guardian index out of range: " ++ toString idx))
    else if ← seen[idx]? then
      return .error (.VerificationFailed ("Duplicate guardian index: " ++ toString idx))
    else checkIndices vaa sigStart left (i + 1) (seen.set idx true)

def verifyVaa (vaa : Vaa) : Option (Except BridgeError Unit) :=
  if vaa.numSignatures < guardianQuorum then
    some (.error (.VerificationFailed ("Insufficient signatures: " ++ toString vaa.numSignatures ++
      " < " ++ toString guardianQuorum ++ " quorum")))
  else checkIndices vaa 6 vaa.numSignatures 0 (List.replicate 19 false)

def buildVaa (numSignatures : UInt8) (emitterChain : UInt16) (emitterAddress : Vector UInt8 32)
    (sequence : UInt64) (payload : List UInt8) : List UInt8 :=
  [1] ++ [0, 0, 0, 0] ++ [numSignatures] ++
    (List.range numSignatures.toNat).flatMap (fun i => .ofNat i :: List.replicate 65 0) ++
    toBeBytes 4 0 ++ toBeBytes 4 0 ++ toBeBytes 2 emitterChain.toNat ++ emitterAddress.toList ++
    toBeBytes 8 sequence.toNat ++ [1] ++ payload

/-! ## Parsing -/

section Parse

variable {b hd head chain addr seq rest : List UInt8} {n x : UInt8}

/-- A VAA cut into its parts; all reads are within bounds. -/
theorem parseVaa_append (hversion : hd[0]? = some 1) (hn : hd[5]? = some n)
    (hhd : hd.length = 6 + n.toNat * 66) (hhead : head.length = 8) (hchain : chain.length = 2)
    (haddr : addr.length = 32) (hseq : seq.length = 8)
    (hb : b = hd ++ (head ++ (chain ++ (addr ++ (seq ++ x :: rest))))) :
    parseVaa b = some (.ok
      { bytes := b, version := 1, numSignatures := n.toNat,
        emitterChain := .ofNat (fromBeBytes chain),
        emitterAddress := String.ofList (hexEncode addr),
        sequence := .ofNat (fromBeBytes seq), payload := rest }) := by
  have hlen : b.length = 6 + n.toNat * 66 + 51 + rest.length := by
    rw [hb]
    simp only [List.length_append, List.length_cons]
    omega
  have hversion' : b[0]? = some 1 := by
    rw [hb, List.getElem?_append_left (by omega), hversion]
  have hn' : b[5]? = some n := by
    rw [hb, List.getElem?_append_left (by omega), hn]
  have hbody : from? b (6 + n.toNat * 66) = some (head ++ (chain ++ (addr ++ (seq ++ x :: rest)))) := by
    rw [hb]
    exact from?_append hhd
  obtain ⟨c₁, c₂, rfl⟩ := List.length_eq_two.1 hchain
  have h8 : (head ++ ([c₁, c₂] ++ (addr ++ (seq ++ x :: rest))))[8]? = some c₁ :=
    getElem?_append_cons hhead
  have h9 : (head ++ ([c₁, c₂] ++ (addr ++ (seq ++ x :: rest))))[9]? = some c₂ := by
    show (head ++ c₁ :: c₂ :: (addr ++ (seq ++ x :: rest)))[9]? = some c₂
    rw [List.append_cons head c₁]
    exact getElem?_append_cons (by simp [hhead])
  have haddr' : slice? (head ++ ([c₁, c₂] ++ (addr ++ (seq ++ x :: rest)))) 10 42 = some addr := by
    rw [← List.append_assoc]
    exact slice?_append (by simp [hhead]) (by omega)
  have hseq' : slice? (head ++ ([c₁, c₂] ++ (addr ++ (seq ++ x :: rest)))) 42 50 = some seq := by
    rw [← List.append_assoc, ← List.append_assoc]
    exact slice?_append (by simp [hhead, haddr]) (by omega)
  have hrest : from? (head ++ ([c₁, c₂] ++ (addr ++ (seq ++ x :: rest)))) 51 = some rest := by
    rw [List.append_cons seq, ← List.append_assoc, ← List.append_assoc, ← List.append_assoc]
    exact from?_append (by simp [hhead, haddr, hseq])
  unfold parseVaa
  rw [if_neg (by omega)]
  simp only [Option.bind_eq_bind, hversion', hn', Option.bind_some, ne_eq, not_true_eq_false, if_false]
  rw [if_neg (by omega), hbody]
  simp only [Option.bind_some, h8, h9, haddr', hseq', hrest]
  rfl

/-- A text that is long enough is a VAA. -/
theorem parseVaa_accepts (hversion : b[0]? = some 1) (hn : b[5]? = some n)
    (hlen : 6 + 66 * n.toNat + 51 ≤ b.length) :
    ∃ vaa, parseVaa b = some (.ok vaa) ∧ vaa.bytes = b ∧ vaa.numSignatures = n.toNat := by
  obtain ⟨hd, body, hhd, hb⟩ := exists_append (6 + n.toNat * 66) (show _ ≤ b.length by omega)
  have hbody : 51 ≤ body.length := by
    rw [hb, List.length_append] at hlen
    omega
  obtain ⟨head, body₁, hhead, rfl⟩ := exists_append 8 (show _ ≤ body.length by omega)
  rw [List.length_append] at hbody
  obtain ⟨chain, body₂, hchain, rfl⟩ := exists_append 2 (show _ ≤ body₁.length by omega)
  rw [List.length_append] at hbody
  obtain ⟨addr, body₃, haddr, rfl⟩ := exists_append 32 (show _ ≤ body₂.length by omega)
  rw [List.length_append] at hbody
  obtain ⟨seq, body₄, hseq, rfl⟩ := exists_append 8 (show _ ≤ body₃.length by omega)
  rw [List.length_append] at hbody
  obtain ⟨x, rest, rfl⟩ := List.exists_cons_of_length_pos (show 0 < body₄.length by omega)
  rw [hb, List.getElem?_append_left (by omega)] at hversion hn
  exact ⟨_, parseVaa_append hversion hn hhd hhead hchain haddr hseq hb, rfl, rfl⟩

/-- What is accepted is as long as the number of its signatures says. -/
theorem parseVaa_accepted {vaa : Vaa} (h : parseVaa b = some (.ok vaa)) :
    b[0]? = some 1 ∧ ∃ n, b[5]? = some n ∧ 6 + 66 * n.toNat + 51 ≤ b.length := by
  unfold parseVaa at h
  split at h
  · cases h
  · next hlong =>
    obtain ⟨x, h0⟩ : ∃ x, b[0]? = some x := ⟨_, List.getElem?_eq_getElem (show 0 < b.length by omega)⟩
    obtain ⟨n, h5⟩ : ∃ n, b[5]? = some n := ⟨_, List.getElem?_eq_getElem (show 5 < b.length by omega)⟩
    simp only [Option.bind_eq_bind, h0, h5, Option.bind_some] at h
    split at h
    · cases h
    · next hversion =>
      split at h
      · cases h
      · next hbody =>
        have hone : x = 1 := by simpa using hversion
        exact ⟨h0.trans (congrArg some hone), _, h5, by omega⟩

/-- No text makes the parser read out of bounds. -/
theorem parseVaa_isSome (b : List UInt8) : ∃ r, parseVaa b = some r := by
  by_cases hlong : b.length < 57
  · exact ⟨_, if_pos hlong⟩
  · obtain ⟨x, h0⟩ : ∃ x, b[0]? = some x := ⟨_, List.getElem?_eq_getElem (show 0 < b.length by omega)⟩
    obtain ⟨n, h5⟩ : ∃ n, b[5]? = some n := ⟨_, List.getElem?_eq_getElem (show 5 < b.length by omega)⟩
    by_cases hversion : x = 1
    · by_cases hbody : b.length < 6 + n.toNat * 66 + 51
      · unfold parseVaa
        rw [if_neg hlong]
        simp only [Option.bind_eq_bind, h0, h5, Option.bind_some]
        rw [if_neg (by simpa using hversion), if_pos hbody]
        exact ⟨_, rfl⟩
      · obtain ⟨vaa, hvaa, -⟩ := parseVaa_accepts (h0.trans (congrArg some hversion)) h5 (by omega)
        exact ⟨_, hvaa⟩
    · unfold parseVaa
      rw [if_neg hlong]
      simp only [Option.bind_eq_bind, h0, Option.bind_some]
      rw [if_pos (by simpa using hversion)]
      exact ⟨_, rfl⟩

theorem length_signatures (n : Nat) :
    ((List.range n).flatMap fun i => UInt8.ofNat i :: List.replicate 65 0).length = n * 66 := by
  rw [List.length_flatMap]
  simp

/-- A built VAA has all its values where the parser reads them. -/
theorem parseVaa_buildVaa (n : UInt8) (chain : UInt16) (addr : Vector UInt8 32) (seq : UInt64)
    (payload : List UInt8) :
    parseVaa (buildVaa n chain addr seq payload) = some (.ok
      { bytes := buildVaa n chain addr seq payload, version := 1, numSignatures := n.toNat,
        emitterChain := chain, emitterAddress := String.ofList (hexEncode addr.toList),
        sequence := seq, payload }) := by
  have hhd : ([1, 0, 0, 0, 0, n] ++ (List.range n.toNat).flatMap fun i =>
      UInt8.ofNat i :: List.replicate 65 0).length = 6 + n.toNat * 66 := by
    rw [List.length_append, length_signatures]
    rfl
  have hhead : (toBeBytes 4 0 ++ toBeBytes 4 0).length = 8 := rfl
  have hb : buildVaa n chain addr seq payload =
      ([1, 0, 0, 0, 0, n] ++ (List.range n.toNat).flatMap fun i => UInt8.ofNat i :: List.replicate 65 0) ++
        ((toBeBytes 4 0 ++ toBeBytes 4 0) ++ (toBeBytes 2 chain.toNat ++ (addr.toList ++
          (toBeBytes 8 seq.toNat ++ 1 :: payload)))) := by simp [buildVaa]
  have h := parseVaa_append rfl rfl hhd hhead (length_toBeBytes 2 _) addr.length_toList
    (length_toBeBytes 8 _) hb
  rwa [ofBeBytes_u16, ofBeBytes_u64] at h

/-- `parse_vaa` answers every text, accepts those of version 1 that hold the signatures they announce and
a body, and reads a built VAA back. -/
theorem parseVaa_exact :
    (∀ b : List UInt8, ∃ r, parseVaa b = some r ∧
      ((∃ vaa, r = .ok vaa) ↔
        b[0]? = some 1 ∧ ∃ n, b[5]? = some n ∧ 6 + 66 * n.toNat + 51 ≤ b.length)) ∧
    ∀ (n : UInt8) (chain : UInt16) (addr : Vector UInt8 32) (seq : UInt64) (payload : List UInt8),
      parseVaa (buildVaa n chain addr seq payload) = some (.ok
        { bytes := buildVaa n chain addr seq payload, version := 1, numSignatures := n.toNat,
          emitterChain := chain, emitterAddress := String.ofList (hexEncode addr.toList),
          sequence := seq, payload }) := by
  constructor
  · intro b
    obtain ⟨r, hr⟩ := parseVaa_isSome b
    refine ⟨r, hr, ?_, ?_⟩
    · rintro ⟨vaa, rfl⟩
      exact parseVaa_accepted hr
    · rintro ⟨hversion, n, hn, hlen⟩
      obtain ⟨vaa, hvaa, -⟩ := parseVaa_accepts hversion hn hlen
      exact ⟨vaa, Option.some.inj (hr.symm.trans hvaa)⟩
  · intro n chain addr seq payload
    exact parseVaa_buildVaa n chain addr seq payload

end Parse

/-! ## The quorum -/

/-- The guardian indices of a VAA with `n` signatures. -/
def guardianIndices (b : List UInt8) (n : Nat) : List Nat :=
  (List.range n).map fun i => (b.getD (6 + i * 66) 0).toNat

section Quorum

variable {vaa : Vaa} {seen : List Bool} {left i : Nat}

/-- Distinct indices below 19 of guardians that have not been seen. -/
def Fresh (seen : List Bool) (l : List Nat) : Prop := l.Nodup ∧ ∀ j ∈ l, seen[j]? = some false

theorem fresh_cons {j : Nat} {l : List Nat} (hj : seen[j]? = some false) :
    Fresh seen (j :: l) ↔ Fresh (seen.set j true) l := by
  have hlt : j < seen.length := (List.getElem?_eq_some_iff.1 hj).1
  unfold Fresh
  rw [List.nodup_cons, List.forall_mem_cons]
  constructor
  · rintro ⟨⟨hnot, hnodup⟩, -, hall⟩
    refine ⟨hnodup, fun k hk => ?_⟩
    have hne : j ≠ k := fun he => hnot (he ▸ hk)
    rw [List.getElem?_set_ne hne]
    exact hall k hk
  · rintro ⟨hnodup, hall⟩
    have hne : ∀ k ∈ l, j ≠ k := by
      rintro k hk rfl
      have hset := hall j hk
      rw [List.getElem?_set_self hlt] at hset
      cases hset
    refine ⟨⟨fun hmem => hne j hmem rfl, hnodup⟩, hj, fun k hk => ?_⟩
    have hset := hall k hk
    rwa [List.getElem?_set_ne (hne k hk)] at hset

/-- The loop answers, and accepts just the indices that are distinct, below 19 and not seen yet. -/
theorem checkIndices_spec (left i : Nat) (hseen : seen.length = 19) (hlen : 6 + 66 * (i + left) ≤ vaa.bytes.length) :
    ∃ r, checkIndices vaa 6 left i seen = some r ∧
      (r = .ok () ↔ Fresh seen ((List.range' i left).map fun i => (vaa.bytes.getD (6 + i * 66) 0).toNat)) := by
  induction left generalizing i seen with
  | zero => exact ⟨_, rfl, iff_of_true rfl ⟨List.nodup_nil, fun j hj => absurd hj List.not_mem_nil⟩⟩
  | succ left ih =>
    have hread : vaa.bytes[6 + i * 66]? = some (vaa.bytes.getD (6 + i * 66) 0) := by
      rw [List.getD_eq_getElem?_getD, List.getElem?_eq_getElem (by omega)]
      rfl
    rw [List.range'_succ, List.map_cons]
    simp only [checkIndices, Option.bind_eq_bind, hread, Option.bind_some]
    generalize hidx : (vaa.bytes.getD (6 + i * 66) 0).toNat = idx
    by_cases hrange : idx ≥ 19
    · rw [if_pos hrange]
      refine ⟨_, rfl, iff_of_false nofun fun hfresh => ?_⟩
      have hmem := hfresh.2 idx List.mem_cons_self
      have := (List.getElem?_eq_some_iff.1 hmem).1
      omega
    · rw [if_neg hrange, List.getElem?_eq_getElem (show idx < seen.length by omega), Option.bind_some]
      by_cases hdup : seen[idx] = true
      · rw [if_pos hdup]
        refine ⟨_, rfl, iff_of_false nofun fun hfresh => ?_⟩
        have hmem := hfresh.2 idx List.mem_cons_self
        rw [List.getElem?_eq_getElem (show idx < seen.length by omega), hdup] at hmem
        cases hmem
      · have hnew : seen[idx]? = some false := by
          rw [List.getElem?_eq_getElem (show idx < seen.length by omega), Bool.eq_false_of_not_eq_true hdup]
        rw [if_neg hdup, fresh_cons hnew]
        exact ih (i + 1) ((List.length_set).trans hseen) (by omega)

theorem fresh_replicate {l : List Nat} :
    Fresh (List.replicate 19 false) l ↔ l.Nodup ∧ ∀ j ∈ l, j < 19 := by
  unfold Fresh
  apply and_congr_right'
  apply forall₂_congr
  intro j _
  rw [List.getElem?_replicate]
  split <;> simp_all

/-- Distinct numbers below `n` are at most `n`. -/
theorem length_le_of_nodup_lt {n : Nat} {l : List Nat} (hnodup : l.Nodup) (hlt : ∀ j ∈ l, j < n) :
    l.length ≤ n := by
  have hsub : l ⊆ List.range n := fun j hj => List.mem_range.2 (hlt j hj)
  have h := (List.Nodup.subperm hnodup hsub).length_le
  rwa [List.length_range] at h

/-- What `verify_vaa` answers to a VAA that the parser accepts. -/
theorem verifyVaa_parsed {b : List UInt8} (h : parseVaa b = some (.ok vaa)) :
    ∃ r, verifyVaa vaa = some r ∧
      (r = .ok () ↔ 13 ≤ vaa.numSignatures ∧ (guardianIndices b vaa.numSignatures).Nodup ∧
        ∀ j ∈ guardianIndices b vaa.numSignatures, j < 19) := by
  obtain ⟨hversion, n, hn, hlen⟩ := parseVaa_accepted h
  obtain ⟨vaa', hvaa', hbytes, hnum⟩ := parseVaa_accepts hversion hn hlen
  obtain rfl : vaa' = vaa := Except.ok.inj (Option.some.inj (hvaa'.symm.trans h))
  have hindices : (List.range' 0 vaa'.numSignatures).map
      (fun i => (vaa'.bytes.getD (6 + i * 66) 0).toNat) = guardianIndices b vaa'.numSignatures := by
    rw [hbytes, ← List.range_eq_range']
    rfl
  unfold verifyVaa
  by_cases hquorum : vaa'.numSignatures < guardianQuorum
  · rw [if_pos hquorum]
    refine ⟨_, rfl, iff_of_false nofun fun hall => ?_⟩
    exact absurd hall.1 (Nat.not_le.2 hquorum)
  · obtain ⟨r, hr, hiff⟩ := checkIndices_spec vaa'.numSignatures 0
      (List.length_replicate (n := 19) (a := false)) (by rw [hbytes, hnum]; omega)
    rw [hindices, fresh_replicate] at hiff
    rw [if_neg hquorum]
    exact ⟨r, hr, hiff.trans (and_iff_right (Nat.not_lt.1 hquorum)).symm⟩

/-- On what the parser accepts, `verify_vaa` never reads out of bounds, and it accepts just the VAAs with
a quorum of distinct guardians. -/
theorem verifyVaa_exact (b : List UInt8) (vaa : Vaa) (h : parseVaa b = some (.ok vaa)) :
    ∃ r, verifyVaa vaa = some r ∧
      (r = .ok () ↔ 13 ≤ vaa.numSignatures ∧ (guardianIndices b vaa.numSignatures).Nodup ∧
        ∀ j ∈ guardianIndices b vaa.numSignatures, j < 19) ∧
      (r = .ok () → vaa.numSignatures ≤ 19) := by
  obtain ⟨r, hr, hiff⟩ := verifyVaa_parsed h
  refine ⟨r, hr, hiff, fun hok => ?_⟩
  obtain ⟨-, hnodup, hlt⟩ := hiff.1 hok
  have hcount : (guardianIndices b vaa.numSignatures).length = vaa.numSignatures := by
    simp [guardianIndices]
  exact hcount ▸ length_le_of_nodup_lt hnodup hlt

/-- Thirteen guardians sign. -/
theorem verifyVaa_thirteen :
    ∃ r, verifyVaa ⟨buildVaa 13 2 (.replicate 32 0) 1 [], 1, 13, 2,
        String.ofList (hexEncode (Vector.replicate 32 0).toList), 1, []⟩ = some r ∧
      (r = .ok () ↔ 13 ≤ 13 ∧ (guardianIndices (buildVaa 13 2 (.replicate 32 0) 1 []) 13).Nodup ∧
        ∀ j ∈ guardianIndices (buildVaa 13 2 (.replicate 32 0) 1 []) 13, j < 19) ∧
      (r = .ok () → 13 ≤ 19) :=
  verifyVaa_exact (buildVaa 13 2 (.replicate 32 0) 1 []) _ (parseVaa_buildVaa 13 2 (.replicate 32 0) 1 [])

theorem guardianIndices_buildVaa (n : UInt8) (chain : UInt16) (addr : Vector UInt8 32) (seq : UInt64)
    (payload : List UInt8) :
    guardianIndices (buildVaa n chain addr seq payload) n.toNat = List.range n.toNat := by
  refine (List.map_congr_left fun i hi => ?_).trans (List.map_id _)
  have hlt : i < n.toNat := List.mem_range.1 hi
  have hn := n.toNat_lt
  have hblock : ((List.range n.toNat).flatMap fun i => UInt8.ofNat i :: List.replicate 65 0)[i * 66]? =
      some (UInt8.ofNat i) := by
    have h := getElem?_blocks (f := fun i => UInt8.ofNat i :: List.replicate 65 0) (w := 66)
      (l := List.range n.toNat) (i := i) (j := 0) (fun _ => by simp) (by decide)
    rw [Nat.add_zero] at h
    rw [h, List.getElem?_range hlt]
    rfl
  have hread : (buildVaa n chain addr seq payload)[6 + i * 66]? = some (UInt8.ofNat i) := by
    unfold buildVaa
    simp only [List.append_assoc, List.cons_append, List.nil_append]
    rw [Nat.add_comm]
    simp only [List.getElem?_cons_succ]
    rw [List.getElem?_append_left, hblock]
    rw [length_signatures]
    omega
  rw [List.getD_eq_getElem?_getD, hread]
  show i % 256 = i
  omega

/-- A built VAA passes both checks if the number of its signatures is from 13 to 19. -/
theorem verifyVaa_buildVaa (n : UInt8) (chain : UInt16) (addr : Vector UInt8 32) (seq : UInt64)
    (payload : List UInt8) :
    (∃ vaa, parseVaa (buildVaa n chain addr seq payload) = some (.ok vaa) ∧
      verifyVaa vaa = some (.ok ())) ↔ 13 ≤ n.toNat ∧ n.toNat ≤ 19 := by
  have hparse := parseVaa_buildVaa n chain addr seq payload
  obtain ⟨r, hr, hiff⟩ := verifyVaa_parsed hparse
  rw [guardianIndices_buildVaa] at hiff
  have hrange : (∀ j ∈ List.range n.toNat, j < 19) ↔ n.toNat ≤ 19 := by
    constructor
    · intro h
      by_contra hlt
      exact Nat.lt_irrefl 19 (h 19 (List.mem_range.2 (by omega)))
    · intro h j hj
      have := List.mem_range.1 hj
      omega
  have hok : r = .ok () ↔ 13 ≤ n.toNat ∧ n.toNat ≤ 19 :=
    hiff.trans (and_congr_right' ((and_iff_right List.nodup_range).trans hrange))
  rw [← hok]
  constructor
  · rintro ⟨vaa, hvaa, hver⟩
    obtain rfl := Except.ok.inj (Option.some.inj (hparse.symm.trans hvaa))
    exact Option.some.inj (hr.symm.trans hver)
  · intro h
    exact ⟨_, hparse, hr.trans (congrArg some h)⟩

end Quorum

end IntentX.Wormhole
