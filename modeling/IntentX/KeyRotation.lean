import IntentX.Basic
import IntentX.Lib.Rely
import Mathlib.Data.List.Sort
import Mathlib.Tactic.Ring

/-!
# Signing keys and the tokens they sign

`KeyRotationService` replaces the active key once it is a week old, and deletes what is inactive and
older than 30 days.  Tokens live for a day.  `get_validation_keys` is meant to keep a replaced key
for a grace period, but measures it from the creation of the key, and a key is a week old when it is
replaced: it is out of its grace period at once, with every token it has signed.

Tokens are accepted until they expire in every run in which a key is replaced only once its tokens
have expired, a token is signed only with a key that is active, and the query of the validation is
answered (`live_tokens_accepted`).
-/

namespace IntentX.Jwt

open Lib Call

/-! ## Keys and tokens -/

/-- Times are in microseconds. -/
def days (n : Int) : Int := n * 86400000000

/-- `TimeDelta::num_days`, which cuts towards zero. -/
def numDays (d : Int) : Int := d.tdiv (days 1)

def keyMaxAgeDays : Int := 7

def keyCleanupDays : Int := 30

def tokenExpirySecs : Int := 86400

def keyCacheTtlSecs : Int := 60

structure JwtKey where
  id : Uuid
  keySecret : String
  active : Bool
  createdAt : Int
  deriving Repr, DecidableEq

structure Claims where
  sub : Uuid
  email : String
  permissions : List String
  exp : Int
  iat : Int
  kid : Option String
  deriving Repr, DecidableEq

/-- A token, with the secret that it is signed with. -/
structure Token where
  secret : String
  claims : Claims
  deriving Repr, DecidableEq

/-- The time at which the token expires. -/
def Token.expiry (tok : Token) : Int := tok.claims.exp * 1000000

inductive JwtError
  | EncodingFailed (e : String)
  | InvalidToken (e : String)
  | Expired
  deriving Repr, DecidableEq

inductive DecodeError
  | ExpiredSignature | InvalidSignature
  deriving Repr, DecidableEq

/-- `jsonwebtoken::decode` with `Validation::default()`: the signature has to be of this secret, and
the expiry may be 60 s ago. -/
def decode (t : Int) (tok : Token) (secret : String) : Except DecodeError Claims :=
  if tok.secret ≠ secret then .error .InvalidSignature
  else if tok.claims.exp < timestamp t - 60 then .error .ExpiredSignature
  else .ok tok.claims

/-- The loop of `validate_token` over the secrets. -/
def tryKeys (t : Int) (tok : Token) : List String → Except JwtError Claims
  | [] => .error (.InvalidToken "No valid signing key found")
  | secret :: secrets =>
    match decode t tok secret with
    | .ok claims => .ok claims
    | .error .ExpiredSignature => .error .Expired
    | .error .InvalidSignature => tryKeys t tok secrets

structure CachedKey where
  secret : String
  fetchedAt : Int
  deriving Repr, DecidableEq

/-! ## The store -/

/-- The table `jwt_keys`, the cache of each process, the tokens issued so far (the latest first) and
the clocks of wall and process; `down` is whether the database fails the next statement. -/
structure JwtDb where
  keys : List JwtKey
  caches : Nat → Option CachedKey
  issued : List Token
  clock : Int
  instant : Int
  down : Bool

inductive Op
  | utcNow
  | instantNow
  /-- `Uuid::new_v4` and `generate_secret` -/
  | newKey
  | selectActive
  | selectValid (cutoff : Int)
  | insertKey (key : JwtKey)
  | deactivate (id : Uuid)
  | deleteOld (cutoff : Int)
  | readCache (process : Nat)
  | writeCache (process : Nat) (key : CachedKey)
  /-- the token goes out -/
  | encode (secret : String) (claims : Claims)
  /-- somebody presents the token that was issued as this one -/
  | present (serial : Nat)
  /-- the secrets are tried on the token -/
  | tryKeys (tok : Token) (secrets : List String)
  deriving Repr, DecidableEq

def Op.Reply : Op → Type
  | .utcNow => Int
  | .instantNow => Int
  | .newKey => Uuid × String
  | .selectActive => Option JwtKey
  | .selectValid _ => List JwtKey
  | .insertKey _ => Unit
  | .deactivate _ => Unit
  | .deleteOld _ => Nat
  | .readCache _ => Option CachedKey
  | .writeCache _ _ => Unit
  | .encode _ _ => Token
  | .present _ => Option Token
  | .tryKeys _ _ => Except JwtError Claims

/-- What the environment decides at a step: the new id and secret, the fate of a statement that
writes, how much time passes until the next step, and whether the database fails there. -/
structure Moment where
  newId : Uuid
  newSecret : String
  fate : Fate
  elapse : Nat
  instantElapse : Nat
  down : Bool
  deriving Repr

def dbError : String := "pool timed out"

/-- The answer to a statement that writes. -/
def JwtDb.answer (db : JwtDb) (n : Moment) {α : Type} (reply : α) : Except String α :=
  if db.down ∨ n.fate ≠ .served then .error dbError else .ok reply

/-- The table after a statement that writes; it is written also if only the answer is lost. -/
def JwtDb.written (db : JwtDb) (n : Moment) (keys : List JwtKey) : JwtDb :=
  if db.down ∨ n.fate = .refused then db else { db with keys }

/-- `ORDER BY created_at DESC` -/
def newestFirst (a b : JwtKey) : Bool := b.createdAt ≤ a.createdAt

/-- `ORDER BY active DESC, created_at DESC` -/
def activeFirst (a b : JwtKey) : Bool :=
  (a.active && !b.active) || (a.active == b.active && newestFirst a b)

def perform (n : Moment) : (o : Op) → JwtDb → Except String o.Reply × JwtDb
  | .utcNow, db => (.ok db.clock, db)
  | .instantNow, db => (.ok db.instant, db)
  | .newKey, db => (.ok (n.newId, n.newSecret), db)
  | .selectActive, db =>
    (if db.down then .error dbError
      else .ok ((db.keys.filter (·.active)).insertionSort fun a b => newestFirst a b).head?, db)
  | .selectValid cutoff, db =>
    (if db.down then .error dbError
      else .ok ((db.keys.filter fun k => k.active || cutoff ≤ k.createdAt).insertionSort
        fun a b => activeFirst a b), db)
  | .insertKey key, db =>
    if db.keys.any (·.id = key.id) then (.error dbError, db)
    else (db.answer n (), db.written n (db.keys ++ [key]))
  | .deactivate id, db =>
    (db.answer n (),
      db.written n (db.keys.map fun k => if k.id = id then { k with active := false } else k))
  | .deleteOld cutoff, db =>
    (db.answer n (db.keys.countP fun k => !k.active && k.createdAt < cutoff),
      db.written n (db.keys.filter fun k => !(!k.active && k.createdAt < cutoff)))
  | .readCache p, db => (.ok (db.caches p), db)
  | .writeCache p key, db =>
    (.ok (), { db with caches := fun q => if q = p then some key else db.caches q })
  | .encode secret claims, db =>
    (.ok ⟨secret, claims⟩, { db with issued := ⟨secret, claims⟩ :: db.issued })
  | .present serial, db => (.ok db.issued.reverse[serial]?, db)
  | .tryKeys tok secrets, db => (.ok (tryKeys db.clock tok secrets), db)

/-- The step, and then the time until the next one. -/
def exec (n : Moment) : Handler Op Op.Reply String JwtDb := fun o db =>
  ((perform n o db).1, { (perform n o db).2 with
    clock := db.clock + n.elapse, instant := db.instant + n.instantElapse, down := n.down })

/-! ## The service and the tokens -/

abbrev Job (E α : Type) := Call Op Op.Reply String E α

section Statements

variable {E : Type} (f : String → E)

def utcNow : Job E Int := op Op.utcNow f

def instantNow : Job E Int := op Op.instantNow f

def newKey : Job E (Uuid × String) := op Op.newKey f

def selectActive : Job E (Option JwtKey) := op Op.selectActive f

def insertKey (key : JwtKey) : Job E Unit := op (Op.insertKey key) f

def deactivate (id : Uuid) : Job E Unit := op (Op.deactivate id) f

def deleteOld (cutoff : Int) : Job E Nat := op (Op.deleteOld cutoff) f

def readCache (process : Nat) : Job E (Option CachedKey) := op (Op.readCache process) f

def writeCache (process : Nat) (key : CachedKey) : Job E Unit := op (Op.writeCache process key) f

def encode (secret : String) (claims : Claims) : Job E Token := op (Op.encode secret claims) f

end Statements

def createAndActivateKey : Job String JwtKey := do
  let (keyId, secret) ← newKey id
  let now ← utcNow id
  let key : JwtKey := ⟨keyId, secret, true, now⟩
  insertKey id key
  return key

def getActiveKey : Job String JwtKey := do
  let key ← selectActive id
  match key with
  | some k => pure k
  | none => createAndActivateKey

/-- Deactivate the current key and create a new one. -/
def rotate (active : JwtKey) : Job String Bool := do
  deactivate id active.id
  let _ ← createAndActivateKey
  return true

def rotateIfNeeded : Job String Bool := do
  let active ← getActiveKey
  let now ← utcNow id
  if numDays (now - active.createdAt) < keyMaxAgeDays then pure false else rotate active

def cleanupOldKeys : Job String Nat := do
  let now ← utcNow id
  deleteOld id (now - days keyCleanupDays)

/-- The active key of the database, which is then cached. -/
def fetchSigningSecret (process : Nat) : Job JwtError String := do
  let key ← mapErr JwtError.EncodingFailed getActiveKey
  let now ← instantNow JwtError.EncodingFailed
  writeCache JwtError.EncodingFailed process ⟨key.keySecret, now⟩
  return key.keySecret

/-- `get_signing_secret`, where a key service is set. -/
def getSigningSecret (process : Nat) : Job JwtError String := do
  let cache ← readCache JwtError.EncodingFailed process
  match cache with
  | none => fetchSigningSecret process
  | some cached => do
    let now ← instantNow JwtError.EncodingFailed
    if timestamp (now - cached.fetchedAt) < keyCacheTtlSecs then pure cached.secret
    else fetchSigningSecret process

def createToken (process : Nat) (userId : Uuid) (email : String) (permissions : List String) :
    Job JwtError Token := do
  let secret ← getSigningSecret process
  let now ← utcNow JwtError.EncodingFailed
  encode JwtError.EncodingFailed secret
    ⟨userId, email, permissions, timestamp now + tokenExpirySecs, timestamp now, none⟩

section Validation

-- the secret of the configuration, for when the query fails
variable (jwtSecret : String)

def secretsOf : Option (List JwtKey) → List String
  | some keys => keys.map (·.keySecret)
  | none => [jwtSecret]

def selectValid (cutoff : Int) : Job JwtError (Option (List JwtKey)) := attempt (Op.selectValid cutoff)

/-- `get_validation_secrets`, where a key service is set. -/
def getValidationSecrets : Job JwtError (List String) := do
  let now ← utcNow JwtError.InvalidToken
  let keys ← selectValid (now - days keyMaxAgeDays)
  return secretsOf jwtSecret keys

def validateToken (tok : Token) : Job JwtError (Except JwtError Claims) := do
  let secrets ← getValidationSecrets jwtSecret
  op (Op.tryKeys tok secrets) JwtError.InvalidToken

def present (serial : Nat) : Job JwtError (Option Token) := op (Op.present serial) JwtError.InvalidToken

def validateIssued (serial : Nat) : Job JwtError (Except JwtError Claims) := do
  let tok ← present serial
  let tok ← orThrow tok (JwtError.InvalidToken "no such token")
  validateToken jwtSecret tok

inductive Request
  | rotate
  | cleanup
  | create (process : Nat) (userId : Uuid) (email : String) (permissions : List String)
  /-- the token that was issued as this one is presented -/
  | validate (serial : Nat)

def Request.task : Request → Prog Op Op.Reply String Unit
  | .rotate => rotateIfNeeded.run >>= fun _ => .ret ()
  | .cleanup => cleanupOldKeys.run >>= fun _ => .ret ()
  | .create p userId email permissions =>
    (createToken p userId email permissions).run >>= fun _ => .ret ()
  | .validate serial => (validateIssued jwtSecret serial).run >>= fun _ => .ret ()

def jwtPool {ι : Type} (reqs : ι → Request) (db : JwtDb) : Pool Op Op.Reply String JwtDb ι :=
  ⟨db, fun i => (reqs i).task jwtSecret⟩

end Validation

/-! ## Runs -/

/-- A key is replaced only once its tokens have expired, a token is signed only with the secret of an
active key, and the validation gets its keys from the database. -/
def Orderly (db : JwtDb) : Op → Prop
  | .deactivate id => ∀ k ∈ db.keys, k.id = id → ∀ tok ∈ db.issued, tok.secret = k.keySecret →
      tok.expiry ≤ db.clock
  | .encode secret _ => ∃ k ∈ db.keys, k.keySecret = secret ∧ k.active
  | .selectValid _ => db.down = false
  | _ => True

instance (db : JwtDb) : ∀ o, Decidable (Orderly db o)
  | .deactivate id => inferInstanceAs (Decidable (∀ k ∈ db.keys, k.id = id → ∀ tok ∈ db.issued, _))
  | .encode _ _ => inferInstanceAs (Decidable (∃ k ∈ db.keys, _))
  | .selectValid _ => inferInstanceAs (Decidable (db.down = false))
  | .utcNow | .instantNow | .newKey | .selectActive | .insertKey _ | .deleteOld _ | .readCache _
  | .writeCache _ _ | .present _ | .tryKeys _ _ => .isTrue trivial

/-- Every validation of a token that has not expired accepts it. -/
def Accepted {ι : Type} (l : List (Done Op JwtDb ι)) : Prop :=
  ∀ d ∈ l, ∀ tok secrets, d.op = .tryKeys tok secrets → d.store.clock < tok.expiry →
    tryKeys d.store.clock tok secrets = .ok tok.claims

/-- The token has expired, or its key is active. -/
def JwtDb.Covers (db : JwtDb) (tok : Token) : Prop :=
  tok.expiry ≤ db.clock ∨ ∃ k ∈ db.keys, k.keySecret = tok.secret ∧ k.active

/-- A token that is tried has expired, or its secret is there. -/
def MayTry (db : JwtDb) : Op → Prop
  | .tryKeys tok secrets => tok.expiry ≤ db.clock ∨ tok.secret ∈ secrets
  | _ => True

theorem tryKeys_ok {t : Int} {tok : Token} {secrets : List String} (ht : t < tok.expiry)
    (h : tok.secret ∈ secrets) : tryKeys t tok secrets = .ok tok.claims := by
  have hexp : ¬ tok.claims.exp < timestamp t - 60 := by
    unfold Token.expiry at ht
    unfold timestamp
    omega
  induction secrets with
  | nil => exact nomatch h
  | cons secret secrets ih =>
    by_cases hs : tok.secret = secret
    · simp [tryKeys, decode, hs, hexp]
    · have hmem : tok.secret ∈ secrets := (List.mem_cons.1 h).resolve_left hs
      simp [tryKeys, decode, hs, ih hmem]

theorem written_cases (db : JwtDb) (n : Moment) (keys : List JwtKey) :
    db.written n keys = db ∨ db.written n keys = { db with keys } := by
  unfold JwtDb.written
  split
  · exact .inl rfl
  · exact .inr rfl

/-- A key that is in the table and stays there. -/
theorem mem_written {db : JwtDb} {n : Moment} {keys : List JwtKey} {k : JwtKey} (hk : k ∈ db.keys)
    (hk' : k ∈ keys) : k ∈ (db.written n keys).keys := by
  rcases written_cases db n keys with he | he <;> rw [he]
  · exact hk
  · exact hk'

theorem issued_written (db : JwtDb) (n : Moment) (keys : List JwtKey) :
    (db.written n keys).issued = db.issued := by
  rcases written_cases db n keys with he | he <;> rw [he]

/-- An active key stays, unless it is the one that is deactivated. -/
theorem perform_keeps (n : Moment) (o : Op) {db : JwtDb} {k : JwtKey} (hk : k ∈ db.keys)
    (ha : k.active) : k ∈ (perform n o db).2.keys ∨ o = .deactivate k.id := by
  cases o with
  | insertKey key =>
    refine .inl ?_
    simp only [perform]
    split
    · exact hk
    · exact mem_written hk (List.mem_append_left _ hk)
  | deactivate id =>
    by_cases hid : k.id = id
    · exact .inr (by rw [hid])
    · exact .inl (mem_written hk (List.mem_map.2 ⟨k, hk, by rw [if_neg hid]⟩))
  | deleteOld cutoff => exact .inl (mem_written hk (List.mem_filter.2 ⟨hk, by simp [ha]⟩))
  | _ => exact .inl hk

/-- What is issued stays issued, and what is new is the token that is signed. -/
theorem perform_issued (n : Moment) (o : Op) (db : JwtDb) :
    (perform n o db).2.issued = db.issued ∨
      ∃ secret claims, o = .encode secret claims ∧
        (perform n o db).2.issued = ⟨secret, claims⟩ :: db.issued := by
  cases o with
  | insertKey key =>
    refine .inl ?_
    simp only [perform]
    split
    · rfl
    · exact issued_written db n _
  | deactivate id => exact .inl (issued_written db n _)
  | deleteOld cutoff => exact .inl (issued_written db n _)
  | encode secret claims => exact .inr ⟨secret, claims, rfl, rfl⟩
  | _ => exact .inl rfl

theorem clock_le (n : Moment) (o : Op) (db : JwtDb) : db.clock ≤ (exec n o db).2.clock := by
  show db.clock ≤ db.clock + n.elapse
  omega

theorem issued_subset (n : Moment) (o : Op) (db : JwtDb) : db.issued ⊆ (exec n o db).2.issued := by
  show db.issued ⊆ (perform n o db).2.issued
  rcases perform_issued n o db with he | ⟨secret, claims, -, he⟩ <;> rw [he]
  · exact List.Subset.refl _
  · exact List.subset_cons_self _ _

theorem covers_exec {n : Moment} {o : Op} {db : JwtDb} (h : ∀ tok ∈ db.issued, db.Covers tok)
    (ho : Orderly db o) : ∀ tok ∈ (exec n o db).2.issued, (exec n o db).2.Covers tok := by
  have hold : ∀ tok, db.Covers tok → tok ∈ db.issued → (exec n o db).2.Covers tok := by
    rintro tok (hexp | ⟨k, hk, hsecret, hactive⟩) htok
    · exact .inl (hexp.trans (clock_le n o db))
    · rcases perform_keeps n o hk hactive with hkeep | rfl
      · exact .inr ⟨k, hkeep, hsecret, hactive⟩
      · exact .inl ((ho k hk rfl tok htok hsecret.symm).trans (clock_le n _ db))
  intro tok htok
  have htok : tok ∈ (perform n o db).2.issued := htok
  rcases perform_issued n o db with he | ⟨secret, claims, rfl, he⟩ <;> rw [he] at htok
  · exact hold tok (h tok htok) htok
  · rcases List.mem_cons.1 htok with rfl | htok
    · obtain ⟨k, hk, hsecret, hactive⟩ := ho
      exact .inr ⟨k, hk, hsecret, hactive⟩
    · exact hold tok (h tok htok) htok

section Pools

variable {ι : Type}

/-- Every token has expired or has an active key, tokens and time do not go back, and a token is
tried on its secret unless it has expired. -/
def jwtProtocol (ι : Type) : Protocol exec ι where
  inv x := ∀ tok ∈ x.2.issued, x.2.Covers tok
  rely x y := x.2.issued ⊆ y.2.issued ∧ x.2.clock ≤ y.2.clock
  may _ x o := MayTry x.2 o
  given _ x o := Orderly x.2 o
  refl _ := ⟨List.Subset.refl _, le_refl _⟩
  trans h h' := ⟨List.Subset.trans h.1 h'.1, h.2.trans h'.2⟩
  step n hinv _ hgiven :=
    ⟨covers_exec hinv hgiven, issued_subset n _ _, clock_le n _ _⟩

variable {i : ι} {x : Trace Op JwtDb ι} {tok : Token}

/-- The statement tries no token. -/
def Quiet (o : Op) : Prop := ∀ db, MayTry db o

theorem obeys_quiet {α : Type} {p : Prog Op Op.Reply String α} (hp : p.Issues Quiet) :
    (jwtProtocol ι).Obeys i p :=
  Protocol.obeys_of_issues (fun _ ho y => ho y.2) hp

theorem createAndActivateKey_quiet : createAndActivateKey.Issues Quiet :=
  issues_bind (issues_op fun _ => trivial) fun _ => issues_bind (issues_op fun _ => trivial)
    fun _ => issues_bind (issues_op fun _ => trivial) fun _ => issues_pure _

theorem getActiveKey_quiet : getActiveKey.Issues Quiet := by
  refine issues_bind (issues_op fun _ => trivial) fun key => ?_
  cases key with
  | none => exact createAndActivateKey_quiet
  | some k => exact issues_pure k

theorem rotateIfNeeded_quiet : rotateIfNeeded.Issues Quiet := by
  refine issues_bind getActiveKey_quiet fun active => issues_bind (issues_op fun _ => trivial)
    fun now => ?_
  split
  · exact issues_pure _
  · exact issues_bind (issues_op fun _ => trivial) fun _ =>
      issues_bind createAndActivateKey_quiet fun _ => issues_pure _

theorem cleanupOldKeys_quiet : cleanupOldKeys.Issues Quiet :=
  issues_bind (issues_op fun _ => trivial) fun _ => issues_op fun _ => trivial

theorem fetchSigningSecret_quiet (process : Nat) : (fetchSigningSecret process).Issues Quiet :=
  issues_bind (issues_mapErr getActiveKey_quiet) fun _ =>
    issues_bind (issues_op fun _ => trivial) fun _ => issues_bind (issues_op fun _ => trivial)
      fun _ => issues_pure _

theorem createToken_quiet (process : Nat) (userId : Uuid) (email : String)
    (permissions : List String) : (createToken process userId email permissions).Issues Quiet := by
  refine issues_bind (issues_bind (issues_op fun _ => trivial) fun cache => ?_) fun _ =>
    issues_bind (issues_op fun _ => trivial) fun _ => issues_op fun _ => trivial
  cases cache with
  | none => exact fetchSigningSecret_quiet process
  | some cached =>
    refine issues_bind (issues_op fun _ => trivial) fun now => ?_
    split
    · exact issues_pure _
    · exact fetchSigningSecret_quiet process

/-- The keys that the query of a validation finds have the secret of every token that is alive. -/
theorem secret_mem {db : JwtDb} (hc : db.Covers tok) (hd : db.down = false) (n : Moment)
    (jwtSecret : String) (cutoff : Int) :
    tok.expiry ≤ db.clock ∨
      tok.secret ∈ secretsOf jwtSecret (exec n (.selectValid cutoff) db).1.toOption := by
  rcases hc with hexp | ⟨k, hk, hsecret, hactive⟩
  · exact .inl hexp
  · refine .inr ?_
    have hreply : (exec n (.selectValid cutoff) db).1 = .ok ((db.keys.filter fun k =>
        k.active || cutoff ≤ k.createdAt).insertionSort fun a b => activeFirst a b) := by
      simp [exec, perform, hd]
    rw [hreply]
    refine List.mem_map.2 ⟨k, ?_, hsecret⟩
    rw [List.mem_insertionSort]
    exact List.mem_filter.2 ⟨hk, by simp [hactive]⟩

theorem follows_validateToken (jwtSecret : String) (htok : tok ∈ x.2.issued) :
    (jwtProtocol ι).Follows i (fun _ _ => True) (validateToken jwtSecret tok).run x := by
  refine Protocol.follows_bind_run (Protocol.follows_bind_run (Protocol.follows_op
    fun y hr _ _ => ⟨trivial, fun n => ?_⟩))
  have htok : tok ∈ (y.next exec i n .utcNow).2.issued := issued_subset n _ _ (hr.1 htok)
  refine Protocol.follows_bind_run (Protocol.follows_attempt fun z hr _ hinv hd =>
    ⟨trivial, fun n' => ?_⟩)
  have hmem := secret_mem (hinv tok (hr.1 htok)) hd n' jwtSecret (y.2.clock - days keyMaxAgeDays)
  refine Protocol.follows_pure (Protocol.follows_op fun w hr _ _ => ⟨?_, fun _ => trivial⟩)
  rcases hmem with hexp | hmem
  · exact .inl ((hexp.trans (clock_le n' _ _)).trans hr.2)
  · exact .inr hmem

theorem Request.obeys (jwtSecret : String) (r : Request) :
    (jwtProtocol ι).Obeys i (r.task jwtSecret) := by
  cases r with
  | rotate =>
    exact Protocol.obeys_bind (obeys_quiet rotateIfNeeded_quiet) fun _ => Protocol.obeys_ret ()
  | cleanup =>
    exact Protocol.obeys_bind (obeys_quiet cleanupOldKeys_quiet) fun _ => Protocol.obeys_ret ()
  | create p userId email permissions =>
    exact Protocol.obeys_bind (obeys_quiet (createToken_quiet p userId email permissions))
      fun _ => Protocol.obeys_ret ()
  | validate serial =>
    refine Protocol.obeys_bind (fun x => ?_) fun _ => Protocol.obeys_ret ()
    refine Protocol.follows_bind_run (Protocol.follows_op fun y _ _ _ => ⟨trivial, fun n => ?_⟩)
    refine Protocol.follows_bind_run (Protocol.follows_orThrow (fun _ => trivial) fun tok htok => ?_)
    have hmem : tok ∈ y.2.issued := List.mem_reverse.1 (List.mem_of_getElem? htok)
    exact follows_validateToken jwtSecret (issued_subset n _ _ hmem)

/-- **Live tokens are accepted** in every run of rotations, cleanups, signings and validations, at
any times and in any order, that replaces no key with tokens that are alive, signs with active keys
only, and does not fail the query of a validation. -/
theorem live_tokens_accepted [DecidableEq ι] (jwtSecret : String) (reqs : ι → Request) {db : JwtDb}
    (hdb : db.issued = []) {l : List (Done Op JwtDb ι)} {p : Pool Op Op.Reply String JwtDb ι}
    (run : Pool.Run exec (jwtPool jwtSecret reqs db) l p) (ho : ∀ d ∈ l, Orderly d.store d.op) :
    Accepted l := by
  have hstart : (jwtProtocol ι).inv ([], (jwtPool jwtSecret reqs db).store) := by
    intro tok htok
    have htok : tok ∈ db.issued := htok
    rw [hdb] at htok
    exact nomatch htok
  obtain ⟨hkept, -⟩ := Protocol.run_follows run (Protocol.given_of_mem fun d hd _ => ho d hd) hstart
    fun i => (reqs i).obeys jwtSecret _
  intro d hd tok secrets hop hlive
  obtain ⟨l', -, hmay, -, -⟩ := hkept.past d hd
  have hmay : MayTry d.store d.op := hmay
  rw [hop] at hmay
  rcases hmay with hexp | hmem
  · exact absurd hlive (not_lt.2 hexp)
  · exact tryKeys_ok hlive hmem

end Pools

/-! ### A key that is replaced while its token is alive -/

def demoMoment (elapse : Nat) : Moment := ⟨2, "new", .served, elapse, elapse, false⟩

/-- A key of almost a week. -/
def demoDb : JwtDb where
  keys := [⟨1, "old", true, 0⟩]
  caches := fun _ => none
  issued := []
  clock := days 7 - 1000000
  instant := 0
  down := false

def demoReqs : Nat → Request
  | 0 => .create 0 7 "a@b.c" []
  | 1 => .rotate
  | _ => .validate 0

def demoPlay (sched : List (Nat × Moment)) :
    List (Done Op JwtDb Nat) × Pool Op Op.Reply String JwtDb Nat :=
  Pool.play exec sched ([], jwtPool "config" demoReqs demoDb)

theorem demoPlay_run (sched : List (Nat × Moment)) :
    Pool.Run exec (jwtPool "config" demoReqs demoDb) (demoPlay sched).1 (demoPlay sched).2 := by
  apply Pool.Run.play
  exact .start

/-- A token is signed, and after `gap` the key is replaced or not, and the token is presented. -/
def demoSched (gap rotation : Nat) : List (Nat × Moment) :=
  List.replicate 5 (0, demoMoment 0) ++ [(0, demoMoment gap)] ++
    List.replicate rotation (1, demoMoment 0) ++ List.replicate 4 (2, demoMoment 0)

def demoToken : Token := ⟨"old", ⟨7, "a@b.c", [], 691199, 604799, none⟩⟩

/-- Two seconds after it was signed, and a day before it expires, the token is refused: its key was
replaced in between. -/
theorem live_token_refused :
    Pool.Run exec (jwtPool "config" demoReqs demoDb) (demoPlay (demoSched 2000000 6)).1
      (demoPlay (demoSched 2000000 6)).2 ∧
    ¬ Accepted (demoPlay (demoSched 2000000 6)).1 := by
  refine ⟨demoPlay_run _, fun h => ?_⟩
  have htried : ∃ d ∈ (demoPlay (demoSched 2000000 6)).1,
      d.op = .tryKeys demoToken ["new"] ∧ d.store.clock < demoToken.expiry := by decide +kernel
  obtain ⟨d, hd, hop, hlive⟩ := htried
  have hok := h d hd demoToken ["new"] hop hlive
  simp [tryKeys, decode, demoToken] at hok

/-- The key is replaced, then a token is signed and presented. -/
def rotatedSched : List (Nat × Moment) :=
  (1, demoMoment 2000000) :: List.replicate 5 (1, demoMoment 0) ++ List.replicate 6 (0, demoMoment 0) ++
    List.replicate 4 (2, demoMoment 0)

theorem live_token_accepted :
    ((demoPlay rotatedSched).2.store.keys.map fun k => (k.keySecret, k.active)) =
      [("old", false), ("new", true)] ∧
    Accepted (demoPlay rotatedSched).1 :=
  ⟨by decide +kernel,
    live_tokens_accepted "config" demoReqs rfl (demoPlay_run rotatedSched) (by decide +kernel)⟩

end IntentX.Jwt
