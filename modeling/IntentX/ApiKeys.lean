import IntentX.Basic
import IntentX.Lib.Machine
import IntentX.Lib.Text

/-!
# API keys

`ApiKeyService` stores the SHA-256 of a key and its first 8 bytes.  A key is validated by the rows
with its prefix that are not revoked: the first one with its hash is the answer.  A revoked row is
never read, so a revoked key is told that it is not found (`validateKey_not_revoked`).

After any run a key is accepted if and only if a key with its prefix and hash was created and not
revoked since, and only its owner has revoked it (`validates_iff`).
-/

namespace IntentX.ApiKeys

open Lib Machine Text

def keyPrefixLen : Nat := 8

/-- A row of `api_keys`. -/
structure ApiKey where
  id : Uuid
  userId : Uuid
  keyHash : String
  keyPrefix : List UInt8
  name : String
  permissions : List String
  createdAt : Int
  lastUsedAt : Option Int
  revoked : Bool
  deriving Repr, DecidableEq

inductive ApiKeyError
  | NotFound | Revoked | InvalidKey
  | DbError (e : String)
  deriving Repr, DecidableEq

def ApiKeyError.text : ApiKeyError → String
  | .NotFound => "API key not found"
  | .Revoked => "API key has been revoked"
  | .InvalidKey => "Invalid API key"
  | .DbError e => "Database error: " ++ e

abbrev KeyTable := Table ApiKey ApiKey.id ApiKey.id

/-- `itx_` and the 32 digits of 16 random bytes. -/
def generateKey (random : Vector UInt8 16) : List UInt8 :=
  utf8 (String.ofList ("itx_".toList ++ hexEncode random.toList))

section Service

-- SHA-256; a key is given by its bytes, which the header it comes in keeps to ASCII
variable (sha256 : List UInt8 → List UInt8)

def hashKey (key : List UInt8) : String := String.ofList (hexEncode (sha256 key))

/-- The candidates by prefix, and of these the one with the hash. -/
def selectKey (rawKey : List UInt8) (rows : List ApiKey) : Except ApiKeyError ApiKey :=
  let candidates := rows.filter fun k => k.keyPrefix == rawKey.take keyPrefixLen && !k.revoked
  match candidates.find? fun k => k.keyHash == hashKey sha256 rawKey with
  | none => .error .NotFound
  | some key => if key.revoked then .error .Revoked else .ok key

/-- `validate_key`, up to the best-effort `UPDATE` of `last_used_at`. -/
def validateKey (rawKey : List UInt8) (fate : Fate) (table : KeyTable) : Except ApiKeyError ApiKey :=
  if rawKey.length < keyPrefixLen then .error .InvalidKey
  else if fate ≠ .served then .error (.DbError "pool timed out")
  else selectKey sha256 rawKey table.rows

/-- What `create_key` is asked for, with the id and the key that it draws. -/
structure Creation where
  id : Uuid
  userId : Uuid
  name : String
  permissions : List String
  random : Vector UInt8 16
  deriving Repr, DecidableEq

def Creation.raw (c : Creation) : List UInt8 := generateKey c.random

def Creation.row (c : Creation) (now : Int) : ApiKey where
  id := c.id
  userId := c.userId
  keyHash := hashKey sha256 c.raw
  keyPrefix := c.raw.take keyPrefixLen
  name := c.name
  permissions := c.permissions
  createdAt := now
  lastUsedAt := none
  revoked := false

def createKey (c : Creation) (now : Int) (fate : Fate) (table : KeyTable) :
    Except ApiKeyError (List UInt8) × KeyTable :=
  match table.insert (c.row sha256 now) with
  | none => (.error (.DbError "duplicate key"), table)
  | some table' =>
    match fate with
    | .refused => (.error (.DbError "pool timed out"), table)
    | .lost => (.error (.DbError "pool timed out"), table')
    | .served => (.ok c.raw, table')

def touchKey (id : Uuid) (now : Int) (table : KeyTable) : KeyTable :=
  table.update (fun k => k.id == id) (fun k => { k with lastUsedAt := some now }) fun _ => ⟨rfl, rfl⟩

/-- The row that `revoke_key` hits. -/
def owned (keyId userId : Uuid) (k : ApiKey) : Bool := k.id == keyId && k.userId == userId

def revokeKey (keyId userId : Uuid) (fate : Fate) (table : KeyTable) :
    Except ApiKeyError Unit × KeyTable :=
  let table' := table.update (owned keyId userId) (fun k => { k with revoked := true }) fun _ => ⟨rfl, rfl⟩
  match fate with
  | .refused => (.error (.DbError "pool timed out"), table)
  | .lost => (.error (.DbError "pool timed out"), table')
  | .served => (if table.affected (owned keyId userId) = 0 then .error .NotFound else .ok (), table')

variable {sha256} in
/-- The answer `API key revoked` is never given. -/
theorem validateKey_not_revoked (rawKey : List UInt8) (fate : Fate) (table : KeyTable) :
    validateKey sha256 rawKey fate table ≠ .error .Revoked := by
  unfold validateKey selectKey
  split
  · nofun
  · split
    · nofun
    · simp only
      split
      · nofun
      · next key hkey =>
        have hmem := (List.mem_filter.1 (List.mem_of_find?_eq_some hkey)).2
        simp only [Bool.and_eq_true, Bool.not_eq_true'] at hmem
        rw [if_neg (by rw [hmem.2]; decide)]
        nofun

/-! ## Runs -/

inductive Event
  | create (c : Creation) (now : Int) (fate : Fate)
  /-- the `UPDATE` of a validation, whenever it comes -/
  | touch (id : Uuid) (now : Int)
  | revoke (keyId userId : Uuid) (fate : Fate)
  deriving Repr, DecidableEq

/-- The table beside what was created and which of it was revoked so far. -/
structure Store where
  table : KeyTable
  made : List Creation
  revoked : List Uuid

def Store.new : Store := ⟨Table.empty, [], []⟩

def step (s : Store) : Event → Store
  | .create c now fate =>
    { s with
      table := (createKey sha256 c now fate s.table).2
      made := if fate ≠ .refused ∧ (s.table.insert (c.row sha256 now)).isSome then c :: s.made
        else s.made }
  | .touch id now => { s with table := touchKey id now s.table }
  | .revoke keyId userId fate =>
    { s with
      table := (revokeKey keyId userId fate s.table).2
      revoked := if fate ≠ .refused ∧ s.table.rows.any (owned keyId userId) then keyId :: s.revoked
        else s.revoked }

/-- The row is of this creation, and revoked or not. -/
structure Of (revoked : List Uuid) (c : Creation) (k : ApiKey) : Prop where
  id : k.id = c.id
  userId : k.userId = c.userId
  permissions : k.permissions = c.permissions
  keyHash : k.keyHash = hashKey sha256 c.raw
  keyPrefix : k.keyPrefix = c.raw.take keyPrefixLen
  revoked : k.revoked = true ↔ c.id ∈ revoked

/-- The rows are what was created, and what was revoked is among them. -/
structure Store.Inv (s : Store) : Prop where
  made : ∀ k ∈ s.table.rows, ∃ c ∈ s.made, Of sha256 s.revoked c k
  there : ∀ c ∈ s.made, ∃ k ∈ s.table.rows, Of sha256 s.revoked c k
  known : ∀ id ∈ s.revoked, ∃ k ∈ s.table.rows, k.id = id

variable {sha256} {s : Store}

theorem inv_new : Store.new.Inv sha256 :=
  ⟨fun _ h => (nomatch h), fun _ h => (nomatch h), fun _ h => (nomatch h)⟩

theorem createKey_table (c : Creation) (now : Int) (fate : Fate) (table : KeyTable) :
    (createKey sha256 c now fate table).2 =
      if fate = .refused then table else (table.insert (c.row sha256 now)).getD table := by
  unfold createKey
  cases table.insert (c.row sha256 now) <;> cases fate <;> rfl

theorem inv_create (h : s.Inv sha256) (c : Creation) (now : Int) (fate : Fate) :
    (step sha256 s (.create c now fate)).Inv sha256 := by
  simp only [step]
  rw [createKey_table]
  by_cases hr : fate = .refused
  · rw [if_pos hr, if_neg fun hn => hn.1 hr]
    exact h
  rw [if_neg hr]
  rcases hins : s.table.insert (c.row sha256 now) with _ | table'
  · rw [if_neg fun hn => (nomatch hn.2)]
    exact h
  · rw [if_pos ⟨hr, rfl⟩]
    have hfree : ∀ k ∈ s.table.rows, k.id ≠ c.id := fun k hk =>
      (Table.insert_isSome_iff.1 (by rw [hins]; rfl) k hk).1
    have hnew : Of sha256 s.revoked c (c.row sha256 now) := by
      refine ⟨rfl, rfl, rfl, rfl, rfl, ⟨nofun, fun hc => ?_⟩⟩
      obtain ⟨k, hk, hid⟩ := h.known c.id hc
      exact absurd hid (hfree k hk)
    have hmem : ∀ k, k ∈ table'.rows ↔ k ∈ s.table.rows ∨ k = c.row sha256 now := fun k =>
      Table.mem_insert hins
    refine ⟨fun k hk => ?_, fun c' hc' => ?_, fun id hid => ?_⟩
    · rcases (hmem k).1 hk with hk | rfl
      · obtain ⟨c', hc', hof⟩ := h.made k hk
        exact ⟨c', List.mem_cons_of_mem _ hc', hof⟩
      · exact ⟨c, List.mem_cons_self, hnew⟩
    · rcases List.mem_cons.1 hc' with rfl | hc'
      · exact ⟨_, (hmem _).2 (.inr rfl), hnew⟩
      · obtain ⟨k, hk, hof⟩ := h.there c' hc'
        exact ⟨k, (hmem k).2 (.inl hk), hof⟩
    · obtain ⟨k, hk, hid⟩ := h.known id hid
      exact ⟨k, (hmem k).2 (.inl hk), hid⟩

/-- An update that keeps the ids, and of every row what its creation says. -/
theorem inv_update (h : s.Inv sha256) {p : ApiKey → Bool} {f : ApiKey → ApiKey}
    (hf : ∀ k, (f k).id = k.id ∧ (f k).id = k.id) {revoked : List Uuid}
    (hof : ∀ k ∈ s.table.rows, ∀ c, Of sha256 s.revoked c k →
      Of sha256 revoked c (if p k then f k else k))
    (hknown : ∀ id ∈ revoked, ∃ k ∈ s.table.rows, k.id = id) :
    Store.Inv sha256 ⟨s.table.update p f hf, s.made, revoked⟩ := by
  refine ⟨fun k hk => ?_, fun c hc => ?_, fun id hid => ?_⟩
  · obtain ⟨r, hr, rfl⟩ := List.mem_map.1 hk
    obtain ⟨c, hc, h'⟩ := h.made r hr
    exact ⟨c, hc, hof r hr c h'⟩
  · obtain ⟨k, hk, h'⟩ := h.there c hc
    exact ⟨_, List.mem_map.2 ⟨k, hk, rfl⟩, hof k hk c h'⟩
  · obtain ⟨k, hk, rfl⟩ := hknown id hid
    obtain ⟨k', hk', hid, -⟩ := Table.exists_mem_update hf hk
    exact ⟨k', hk', hid⟩

theorem inv_touch (h : s.Inv sha256) (id : Uuid) (now : Int) :
    (step sha256 s (.touch id now)).Inv sha256 := by
  show Store.Inv sha256 ⟨touchKey id now s.table, s.made, s.revoked⟩
  unfold touchKey
  refine inv_update h _ (fun k _ c hof => ?_) h.known
  split
  · exact ⟨hof.id, hof.userId, hof.permissions, hof.keyHash, hof.keyPrefix, hof.revoked⟩
  · exact hof

theorem revokeKey_table (keyId userId : Uuid) (fate : Fate) (table : KeyTable) :
    (revokeKey keyId userId fate table).2 = if fate = .refused then table
      else table.update (owned keyId userId) (fun k => { k with revoked := true }) fun _ => ⟨rfl, rfl⟩ := by
  unfold revokeKey
  cases fate <;> rfl

theorem inv_revoke (h : s.Inv sha256) (keyId userId : Uuid) (fate : Fate) :
    (step sha256 s (.revoke keyId userId fate)).Inv sha256 := by
  simp only [step]
  rw [revokeKey_table]
  by_cases hr : fate = .refused
  · rw [if_pos hr, if_neg fun hn => hn.1 hr]
    exact h
  rw [if_neg hr]
  by_cases hany : s.table.rows.any (owned keyId userId) = true
  · rw [if_pos ⟨hr, hany⟩]
    obtain ⟨k₀, hk₀, hown⟩ := List.any_eq_true.1 hany
    simp only [owned, Bool.and_eq_true, beq_iff_eq] at hown
    refine inv_update h _ (fun k hk c hof => ?_) fun id hid => ?_
    · by_cases ho : owned keyId userId k = true
      · rw [if_pos ho]
        simp only [owned, Bool.and_eq_true, beq_iff_eq] at ho
        refine ⟨hof.id, hof.userId, hof.permissions, hof.keyHash, hof.keyPrefix, ⟨fun _ => ?_, fun _ => rfl⟩⟩
        rw [← hof.id, ho.1]
        exact List.mem_cons_self
      · rw [if_neg ho]
        -- a row with this id is the one that was hit
        have hne : c.id ≠ keyId := by
          intro hid
          have hsame : k = k₀ := eq_of_key_eq s.table.pk_nodup hk hk₀ (by rw [hof.id, hid, hown.1])
          exact ho (by rw [hsame]; simp [owned, hown])
        refine ⟨hof.id, hof.userId, hof.permissions, hof.keyHash, hof.keyPrefix, hof.revoked.trans ?_⟩
        exact ⟨List.mem_cons_of_mem _, fun hm => (List.mem_cons.1 hm).resolve_left hne⟩
    · rcases List.mem_cons.1 hid with rfl | hid
      · exact ⟨k₀, hk₀, hown.1⟩
      · exact h.known id hid
  · rw [if_neg fun hn => hany hn.2]
    refine inv_update h _ (fun k hk c hof => ?_) h.known
    rw [if_neg fun ho => hany (List.any_eq_true.2 ⟨k, hk, ho⟩)]
    exact hof

theorem inv_step (h : s.Inv sha256) (e : Event) : (step sha256 s e).Inv sha256 := by
  cases e with
  | create c now fate => exact inv_create h c now fate
  | touch id now => exact inv_touch h id now
  | revoke keyId userId fate => exact inv_revoke h keyId userId fate

/-- Every key that is drawn is long enough for its prefix. -/
theorem keyPrefixLen_le_raw (c : Creation) : keyPrefixLen ≤ c.raw.length := by
  have hone : ∀ l : List Char, l.length ≤ (l.flatMap String.utf8EncodeChar).length := by
    intro l
    induction l with
    | nil => exact le_rfl
    | cons ch l ih =>
      rw [List.flatMap_cons, List.length_append, List.length_cons, String.length_utf8EncodeChar]
      have hpos := ch.utf8Size_pos
      omega
  have hhex : (hexEncode c.random.toList).length = 32 := by
    simp [hexEncode, List.length_flatMap]
  have hraw := hone ("itx_".toList ++ hexEncode c.random.toList)
  rw [List.length_append, hhex] at hraw
  show keyPrefixLen ≤ (utf8 _).length
  unfold utf8
  rw [String.toList_ofList]
  exact le_trans (by decide) hraw

/-- What an answer of the query is: a row with the prefix and the hash that is not revoked. -/
theorem selectKey_ok (sha256 : List UInt8 → List UInt8) (rawKey : List UInt8) (rows : List ApiKey) :
    (∀ key, selectKey sha256 rawKey rows = .ok key → key ∈ rows ∧
      key.keyPrefix = rawKey.take keyPrefixLen ∧ key.keyHash = hashKey sha256 rawKey ∧
      key.revoked = false) ∧
    ((∃ key, selectKey sha256 rawKey rows = .ok key) ↔ ∃ k ∈ rows,
      k.keyPrefix = rawKey.take keyPrefixLen ∧ k.keyHash = hashKey sha256 rawKey ∧
      k.revoked = false) := by
  have hok : ∀ key, selectKey sha256 rawKey rows = .ok key → key ∈ rows ∧
      key.keyPrefix = rawKey.take keyPrefixLen ∧ key.keyHash = hashKey sha256 rawKey ∧
      key.revoked = false := by
    intro key h
    unfold selectKey at h
    simp only at h
    split at h
    · exact nomatch h
    · next k hk =>
      split at h
      · exact nomatch h
      · obtain rfl := Except.ok.inj h
        obtain ⟨hmem, hsel⟩ := List.mem_filter.1 (List.mem_of_find?_eq_some hk)
        have hhash := List.find?_some hk
        simp only [Bool.and_eq_true, beq_iff_eq, Bool.not_eq_true'] at hsel hhash
        exact ⟨hmem, hsel.1, hhash, hsel.2⟩
  refine ⟨hok, ⟨fun ⟨key, h⟩ => ⟨key, hok key h⟩, ?_⟩⟩
  rintro ⟨k, hk, hpre, hhash, hrev⟩
  have hcand : k ∈ rows.filter fun k => k.keyPrefix == rawKey.take keyPrefixLen && !k.revoked :=
    List.mem_filter.2 ⟨hk, by simp [hpre, hrev]⟩
  unfold selectKey
  simp only
  split
  · next hnone =>
    have hno := List.find?_eq_none.1 hnone k hcand
    rw [hhash] at hno
    exact absurd (beq_self_eq_true _) hno
  · next key hkey =>
    have hrev := (List.mem_filter.1 (List.mem_of_find?_eq_some hkey)).2
    simp only [Bool.and_eq_true, Bool.not_eq_true'] at hrev
    rw [if_neg (by rw [hrev.2]; decide)]
    exact ⟨key, rfl⟩

/-- What a validation that is served answers: nothing for a key that is too short. -/
theorem validateKey_ok (rawKey : List UInt8) (table : KeyTable) :
    (∀ key, validateKey sha256 rawKey .served table = .ok key → key ∈ table.rows ∧
      key.keyPrefix = rawKey.take keyPrefixLen ∧ key.keyHash = hashKey sha256 rawKey ∧
      key.revoked = false) ∧
    ((∃ key, validateKey sha256 rawKey .served table = .ok key) ↔ keyPrefixLen ≤ rawKey.length ∧
      ∃ k ∈ table.rows, k.keyPrefix = rawKey.take keyPrefixLen ∧ k.keyHash = hashKey sha256 rawKey ∧
        k.revoked = false) := by
  by_cases hlen : keyPrefixLen ≤ rawKey.length
  · have hvalidate : validateKey sha256 rawKey .served table = selectKey sha256 rawKey table.rows := by
      unfold validateKey
      rw [if_neg (Nat.not_lt.2 hlen), if_neg (not_not.2 rfl)]
    obtain ⟨hok, hiff⟩ := selectKey_ok sha256 rawKey table.rows
    rw [hvalidate]
    exact ⟨hok, hiff.trans (and_iff_right hlen).symm⟩
  · have hvalidate : validateKey sha256 rawKey .served table = .error .InvalidKey :=
      if_pos (Nat.lt_of_not_le hlen)
    rw [hvalidate]
    exact ⟨nofun, nofun, fun h => absurd h.1 hlen⟩

/-- A revocation that takes effect is by the owner of the key. -/
theorem revoked_step {e : Event} (h : s.Inv sha256) {id : Uuid}
    (hid : id ∈ (step sha256 s e).revoked) :
    id ∈ s.revoked ∨ ∃ c ∈ (step sha256 s e).made, c.id = id ∧ ∃ fate, e = .revoke id c.userId fate := by
  cases e with
  | create c now fate => exact .inl hid
  | touch id now => exact .inl hid
  | revoke keyId userId fate =>
    simp only [step] at hid ⊢
    split at hid
    · next hany =>
      rcases List.mem_cons.1 hid with rfl | hid
      · obtain ⟨k, hk, hown⟩ := List.any_eq_true.1 hany.2
        simp only [owned, Bool.and_eq_true, beq_iff_eq] at hown
        obtain ⟨c, hc, hof⟩ := h.made k hk
        exact .inr ⟨c, hc, by rw [← hof.id, hown.1], fate, by rw [← hof.userId, hown.2]⟩
      · exact .inl hid
    · exact .inl hid

theorem made_step (s : Store) (e : Event) : s.made ⊆ (step sha256 s e).made := by
  cases e with
  | create c now fate =>
    simp only [step]
    split
    · exact List.subset_cons_self _ _
    · exact List.Subset.refl _
  | touch id now => exact List.Subset.refl _
  | revoke keyId userId fate => exact List.Subset.refl _

theorem made_run (s : Store) (es : List Event) : s.made ⊆ (run (step sha256) s es).made := by
  induction es generalizing s with
  | nil => exact List.Subset.refl _
  | cons e es ih => exact List.Subset.trans (made_step s e) (ih _)

/-- What is revoked along a run is revoked by an event of the run that names the owner. -/
theorem revoked_run (h : s.Inv sha256) (es : List Event) {id : Uuid}
    (hid : id ∈ (run (step sha256) s es).revoked) :
    id ∈ s.revoked ∨ ∃ c ∈ (run (step sha256) s es).made, c.id = id ∧
      ∃ fate, Event.revoke id c.userId fate ∈ es := by
  induction es generalizing s with
  | nil => exact .inl hid
  | cons e es ih =>
    rcases ih (inv_step h e) hid with hold | ⟨c, hc, hcid, fate, hmem⟩
    · rcases revoked_step h hold with hold | ⟨c, hc, hcid, fate, rfl⟩
      · exact .inl hold
      · exact .inr ⟨c, made_run _ es hc, hcid, fate, List.mem_cons_self⟩
    · exact .inr ⟨c, hc, hcid, fate, List.mem_cons_of_mem _ hmem⟩

/-- **Which keys are accepted**, after any run of creations, uses and revocations: those for which a
key with this prefix and hash was created and not revoked; the answer is the row of such a key, with
the owner and permissions it was created with; and what is revoked its owner has revoked. -/
theorem validates_iff (es : List Event) (rawKey : List UInt8) :
    (∀ key, validateKey sha256 rawKey .served (run (step sha256) .new es).table = .ok key →
      ∃ c ∈ (run (step sha256) .new es).made, c.id = key.id ∧ c.userId = key.userId ∧
        c.permissions = key.permissions ∧ hashKey sha256 c.raw = hashKey sha256 rawKey ∧
        c.id ∉ (run (step sha256) .new es).revoked) ∧
    ((∃ key, validateKey sha256 rawKey .served (run (step sha256) .new es).table = .ok key) ↔
      ∃ c ∈ (run (step sha256) .new es).made, c.raw.take keyPrefixLen = rawKey.take keyPrefixLen ∧
        hashKey sha256 c.raw = hashKey sha256 rawKey ∧ c.id ∉ (run (step sha256) .new es).revoked) ∧
    ∀ id ∈ (run (step sha256) .new es).revoked,
      ∃ c ∈ (run (step sha256) .new es).made, c.id = id ∧
        ∃ fate, Event.revoke id c.userId fate ∈ es := by
  have hinv : (run (step sha256) .new es).Inv sha256 :=
    run_keeps (C := fun _ _ => True) (fun _ e h _ => inv_step h e) inv_new (each_true _ es)
  obtain ⟨hok, hiff⟩ := validateKey_ok rawKey (run (step sha256) .new es).table
  refine ⟨fun key hkey => ?_, hiff.trans ⟨?_, ?_⟩, fun id hid => ?_⟩
  · obtain ⟨hmem, -, hhash, hrev⟩ := hok key hkey
    obtain ⟨c, hc, hof⟩ := hinv.made key hmem
    refine ⟨c, hc, hof.id.symm, hof.userId.symm, hof.permissions.symm, hof.keyHash.symm.trans hhash, ?_⟩
    exact fun hc => absurd (hof.revoked.2 hc) (by rw [hrev]; decide)
  · rintro ⟨-, k, hk, hpre, hhash, hrev⟩
    obtain ⟨c, hc, hof⟩ := hinv.made k hk
    refine ⟨c, hc, hof.keyPrefix.symm.trans hpre, hof.keyHash.symm.trans hhash, ?_⟩
    exact fun hc => absurd (hof.revoked.2 hc) (by rw [hrev]; decide)
  · rintro ⟨c, hc, hpre, hhash, hnot⟩
    obtain ⟨k, hk, hof⟩ := hinv.there c hc
    have hlen : keyPrefixLen ≤ rawKey.length := by
      have hpair := congrArg List.length hpre
      rw [List.length_take, List.length_take, min_eq_left (keyPrefixLen_le_raw c)] at hpair
      omega
    refine ⟨hlen, k, hk, hof.keyPrefix.trans hpre, hof.keyHash.trans hhash, ?_⟩
    exact Bool.eq_false_iff.2 fun hrev => hnot (hof.revoked.1 hrev)
  · rcases revoked_run inv_new es hid with hnone | h
    · exact nomatch hnone
    · exact h

end Service

/-- SHA-256 at the key of 16 zero bytes. -/
def demoSha256 (_ : List UInt8) : List UInt8 :=
  [187, 220, 48, 253, 87, 236, 43, 9, 121, 247, 43, 150, 4, 142, 241, 71,
    46, 68, 87, 204, 41, 46, 206, 27, 153, 7, 64, 65, 27, 94, 173, 177]

def demoCreation : Creation := ⟨1, 7, "bot", ["intent:read"], .replicate 16 0⟩

/-- A stranger's revocation leaves the key accepted, the owner's does not. -/
theorem validates_demo :
    (∃ key, validateKey demoSha256 demoCreation.raw .served (run (step demoSha256) .new
      [.create demoCreation 0 .served, .revoke 1 8 .served, .touch 1 5]).table = .ok key) ∧
    ¬ ∃ key, validateKey demoSha256 demoCreation.raw .served (run (step demoSha256) .new
      [.create demoCreation 0 .served, .revoke 1 7 .lost]).table = .ok key := by
  constructor
  · exact (validates_iff _ _).2.1.2 ⟨demoCreation, by decide +kernel⟩
  · intro h
    obtain ⟨c, hc, -, -, hnot⟩ := (validates_iff _ _).2.1.1 h
    have hmade : (run (step demoSha256) .new
        [.create demoCreation 0 .served, .revoke 1 7 .lost]).made = [demoCreation] := by decide +kernel
    rw [hmade] at hc
    obtain rfl := List.mem_singleton.1 hc
    exact hnot (by decide +kernel)

end IntentX.ApiKeys
