import IntentX.GatewayRuns
import IntentX.KeyRotation

/-!
# The keys of the platform and the secret of the gateway

The platform signs its tokens with keys that it draws, stores and replaces; the secret of the
configuration signs nothing there.  The gateway validates with that secret alone.

As long as no key that is drawn is the secret of the configuration, the gateway refuses every token
that any interleaving of sign-ins, rotations and cleanups issues (`issued_refused`), and nothing that
comes with one of these tokens gets to a protected handler (`nothing_handled`).
-/

namespace IntentX.Jwt

open Lib Call

section Foreign

variable {ι : Type} {jwtSecret : String}

/-- No key, no cache and no token has the secret of the configuration. -/
structure Foreign (jwtSecret : String) (db : JwtDb) : Prop where
  keys : ∀ k ∈ db.keys, k.keySecret ≠ jwtSecret
  caches : ∀ process, ∀ k ∈ db.caches process, k.secret ≠ jwtSecret
  issued : ∀ tok ∈ db.issued, tok.secret ≠ jwtSecret

/-- What is cached and what signs is not the secret of the configuration. -/
def Signs (jwtSecret : String) : Op → Prop
  | .writeCache _ key => key.secret ≠ jwtSecret
  | .encode secret _ => secret ≠ jwtSecret
  | _ => True

/-- A key that is drawn is not the secret of the configuration. -/
def Draws (jwtSecret : String) : Op → Prop
  | .insertKey key => key.keySecret ≠ jwtSecret
  | _ => True

theorem Foreign.written {db : JwtDb} (h : Foreign jwtSecret db) (n : Moment) {keys : List JwtKey}
    (hkeys : ∀ k ∈ keys, k.keySecret ≠ jwtSecret) : Foreign jwtSecret (db.written n keys) := by
  unfold JwtDb.written
  split
  · exact h
  · exact ⟨hkeys, h.caches, h.issued⟩

theorem Foreign.perform {db : JwtDb} (h : Foreign jwtSecret db) (n : Moment) {o : Op}
    (hs : Signs jwtSecret o) (hd : Draws jwtSecret o) : Foreign jwtSecret (Jwt.perform n o db).2 := by
  cases o with
  | insertKey key =>
    simp only [Jwt.perform]
    split
    · exact h
    · refine h.written n fun k hk => ?_
      rcases List.mem_append.1 hk with hk | hk
      · exact h.keys k hk
      · rw [List.mem_singleton.1 hk]
        exact hd
  | deactivate id =>
    refine h.written n fun k hk => ?_
    obtain ⟨k', hk', rfl⟩ := List.mem_map.1 hk
    split
    · exact h.keys k' hk'
    · exact h.keys k' hk'
  | deleteOld cutoff => exact h.written n fun k hk => h.keys k (List.mem_filter.1 hk).1
  | writeCache process key =>
    refine ⟨h.keys, fun q k hk => ?_, h.issued⟩
    simp only [Jwt.perform] at hk
    split at hk
    · obtain rfl := Option.some.inj hk
      exact hs
    · exact h.caches q k hk
  | encode secret claims =>
    refine ⟨h.keys, h.caches, fun tok htok => ?_⟩
    rcases List.mem_cons.1 htok with rfl | htok
    · exact hs
    · exact h.issued tok htok
  | _ => exact h

/-- Tasks sign and cache with keys of the store alone. -/
def secretProtocol (jwtSecret : String) (ι : Type) : Protocol exec ι where
  inv x := Foreign jwtSecret x.2
  rely _ _ := True
  may _ _ o := Signs jwtSecret o
  given _ _ o := Draws jwtSecret o
  refl _ := trivial
  trans _ _ := trivial
  step {_ x _} n hinv hmay hgiven := by
    have h := hinv.perform n hmay hgiven
    exact ⟨⟨h.keys, h.caches, h.issued⟩, trivial⟩

variable {i : ι} {x : Trace Op JwtDb ι}

/-- The key that was drawn is not the secret of the configuration. -/
theorem follows_createAndActivateKey : (secretProtocol jwtSecret ι).Follows i
    (fun r _ => ∀ key, r = .ok key → key.keySecret ≠ jwtSecret) createAndActivateKey.run x := by
  refine Protocol.follows_bind_run (Protocol.follows_op fun _ _ _ _ => ⟨trivial, fun n => ?_⟩)
  refine Protocol.follows_bind_run (Protocol.follows_op fun y _ _ _ => ⟨trivial, fun n' => ?_⟩)
  refine Protocol.follows_bind_run (Protocol.follows_op fun z _ _ hg => ⟨trivial, fun n'' => ?_⟩)
  cases (exec n'' (.insertKey ⟨n.newId, n.newSecret, true, y.2.clock⟩) z.2).1 with
  | error e => exact fun key hkey => nomatch hkey
  | ok u =>
    refine Protocol.follows_pure fun key hkey => ?_
    obtain rfl := Except.ok.inj hkey
    exact hg

theorem follows_getActiveKey : (secretProtocol jwtSecret ι).Follows i
    (fun r _ => ∀ key, r = .ok key → key.keySecret ≠ jwtSecret) getActiveKey.run x := by
  refine Protocol.follows_bind_run (Protocol.follows_op fun y _ hinv _ => ⟨trivial, fun n => ?_⟩)
  rcases hreply : (exec n .selectActive y.2).1 with e | found
  · intro key hkey
    cases hkey
  · cases found with
    | none => exact follows_createAndActivateKey
    | some key =>
      have hmem : key ∈ y.2.keys := by
        simp only [exec, Jwt.perform] at hreply
        split at hreply
        · cases hreply
        · have hhead := List.mem_of_head? (Except.ok.inj hreply)
          rw [List.mem_insertionSort] at hhead
          exact (List.mem_filter.1 hhead).1
      refine Protocol.follows_pure fun key' hkey => ?_
      obtain rfl := Except.ok.inj hkey
      exact hinv.keys key hmem

theorem follows_fetchSigningSecret (process : Nat) : (secretProtocol jwtSecret ι).Follows i
    (fun r _ => ∀ secret, r = .ok secret → secret ≠ jwtSecret) (fetchSigningSecret process).run x := by
  refine Protocol.follows_bind_run (Protocol.follows_mapErr (follows_getActiveKey.mono fun r y hr => ?_))
  cases r with
  | error e =>
    intro secret hsecret
    cases hsecret
  | ok key =>
    have hkey : key.keySecret ≠ jwtSecret := hr key rfl
    refine Protocol.follows_bind_run (Protocol.follows_op fun _ _ _ _ => ⟨trivial, fun n => ?_⟩)
    refine Protocol.follows_bind_run (Protocol.follows_op fun _ _ _ _ => ⟨hkey, fun n' => ?_⟩)
    refine Protocol.follows_pure fun secret hsecret => ?_
    obtain rfl := Except.ok.inj hsecret
    exact hkey

theorem follows_getSigningSecret (process : Nat) : (secretProtocol jwtSecret ι).Follows i
    (fun r _ => ∀ secret, r = .ok secret → secret ≠ jwtSecret) (getSigningSecret process).run x := by
  refine Protocol.follows_bind_run (Protocol.follows_op fun y _ hinv _ => ⟨trivial, fun n => ?_⟩)
  have hread : (exec n (.readCache process) y.2).1 = .ok (y.2.caches process) := rfl
  rw [hread]
  simp only [Except.mapError]
  cases hcache : y.2.caches process with
  | none => exact follows_fetchSigningSecret process
  | some cached =>
    refine Protocol.follows_bind_run (Protocol.follows_op fun _ _ _ _ => ⟨trivial, fun n' => ?_⟩)
    simp only [exec, Jwt.perform, Except.mapError]
    split
    · refine Protocol.follows_pure fun secret hsecret => ?_
      obtain rfl := Except.ok.inj hsecret
      exact hinv.caches process cached hcache
    · exact follows_fetchSigningSecret process

theorem follows_createToken (process : Nat) (userId : Uuid) (email : String) (permissions : List String) :
    (secretProtocol jwtSecret ι).Follows i (fun _ _ => True)
      (createToken process userId email permissions).run x := by
  refine Protocol.follows_bind_run ((follows_getSigningSecret process).mono fun r y hr => ?_)
  cases r with
  | error e => trivial
  | ok secret =>
    refine Protocol.follows_bind_run (Protocol.follows_op fun _ _ _ _ => ⟨trivial, fun n => ?_⟩)
    exact Protocol.follows_op fun _ _ _ _ => ⟨hr secret rfl, fun _ => trivial⟩

theorem Request.obeys_secret (r : Request) : (secretProtocol jwtSecret ι).Obeys i (r.task jwtSecret) := by
  have hcreate : (secretProtocol jwtSecret ι).Obeys i createAndActivateKey.run :=
    fun _ => follows_createAndActivateKey.mono fun _ _ _ => trivial
  cases r with
  | rotate =>
    refine Protocol.obeys_bind (Protocol.obeys_bind_run
      (fun _ => follows_getActiveKey.mono fun _ _ _ => trivial) fun active => ?_) fun _ => Protocol.obeys_ret ()
    refine Protocol.obeys_bind_run (Protocol.obeys_op fun _ => trivial) fun now => ?_
    split
    · exact Protocol.obeys_ret _
    · exact Protocol.obeys_bind_run (Protocol.obeys_op fun _ => trivial) fun _ =>
        Protocol.obeys_bind_run hcreate fun _ => Protocol.obeys_ret _
  | cleanup =>
    exact Protocol.obeys_bind (Protocol.obeys_bind_run (Protocol.obeys_op fun _ => trivial) fun _ =>
      Protocol.obeys_op fun _ => trivial) fun _ => Protocol.obeys_ret ()
  | create process userId email permissions =>
    exact Protocol.obeys_bind (fun _ => follows_createToken process userId email permissions)
      fun _ => Protocol.obeys_ret ()
  | validate serial =>
    have htry : (validateIssued jwtSecret serial).run.Issues (Signs jwtSecret) :=
      issues_bind (issues_op trivial) fun _ => issues_bind issues_orThrow fun _ =>
        issues_bind (issues_bind (issues_op trivial) fun _ =>
          issues_bind (issues_attempt trivial) fun _ => issues_pure _) fun _ => issues_op trivial
    exact Protocol.obeys_bind (Protocol.obeys_of_issues (fun _ ho _ => ho) htry) fun _ => Protocol.obeys_ret ()

theorem foreign_run [DecidableEq ι] {reqs : ι → Request} {db : JwtDb} (hdb : Foreign jwtSecret db)
    {l : List (Done Op JwtDb ι)} {p : Pool Op Op.Reply String JwtDb ι}
    (run : Pool.Run exec (jwtPool jwtSecret reqs db) l p)
    (hdrawn : ∀ d ∈ l, ∀ key, d.op = .insertKey key → key.keySecret ≠ jwtSecret) :
    Foreign jwtSecret p.store := by
  have hgiven : ∀ d ∈ l, Draws jwtSecret d.op := by
    intro d hd
    cases hop : d.op with
    | insertKey key => exact hdrawn d hd key hop
    | _ => trivial
  obtain ⟨hkept, -⟩ := Protocol.run_follows run (P := secretProtocol jwtSecret ι)
    (Protocol.given_of_mem fun d hd _ => hgiven d hd) hdb fun i => (reqs i).obeys_secret _
  exact hkept.inv

/-- **The gateway refuses every token that the platform issues**, in every run of sign-ins,
rotations, cleanups and validations in any order, in which no key that is drawn is the secret of the
configuration. -/
theorem issued_refused [DecidableEq ι] {cfg : Gateway.Config} {reqs : ι → Request} {db : JwtDb}
    (hdb : Foreign cfg.jwtSecret db) {l : List (Done Op JwtDb ι)} {p : Pool Op Op.Reply String JwtDb ι}
    (run : Pool.Run exec (jwtPool cfg.jwtSecret reqs db) l p)
    (hdrawn : ∀ d ∈ l, ∀ key, d.op = .insertKey key → key.keySecret ≠ cfg.jwtSecret) :
    ∀ tok ∈ p.store.issued, ∀ t text, cfg.tokenOf text = some tok →
      Gateway.validateTokenSync cfg t text = .error (.InvalidToken "InvalidSignature") := by
  intro tok htok t text htext
  have hne : tok.secret ≠ cfg.jwtSecret := (foreign_run hdb run hdrawn).issued tok htok
  unfold Gateway.validateTokenSync decode
  rw [htext]
  simp only [if_pos hne]

/-- **Nothing gets to a protected handler** with a token that the platform issued in such a run,
whatever is sent and in any order. -/
theorem nothing_handled [DecidableEq ι] {τ : Type} [Field τ] [LinearOrder τ] [FloorRing τ]
    {cfg : Gateway.Config} {reqs : ι → Request} {db : JwtDb} (hdb : Foreign cfg.jwtSecret db)
    {l : List (Done Op JwtDb ι)} {p : Pool Op Op.Reply String JwtDb ι}
    (run : Pool.Run exec (jwtPool cfg.jwtSecret reqs db) l p)
    (hdrawn : ∀ d ∈ l, ∀ key, d.op = .insertKey key → key.keySecret ≠ cfg.jwtSecret)
    {routeOf : String → String → Gateway.Target}
    (hpublic : ∀ method path permissions, routeOf method path = .guarded permissions →
      Gateway.servedBy Gateway.publicRoutes path = false)
    {xs : List (Gateway.HttpRequest × Gateway.Moment τ)} (hxs : ∀ x ∈ xs, Gateway.Faithful cfg x)
    (hissued : ∀ x ∈ xs, ∀ text tok, Gateway.bearer x.1 = some text → cfg.tokenOf text = some tok →
      tok ∈ p.store.issued) :
    (Machine.run (Gateway.serve cfg routeOf) .new xs).handled = [] := by
  have hforeign := foreign_run hdb run hdrawn
  refine Machine.run_keeps (I := fun s : Gateway.State τ => s.handled = []) ?_ rfl
    (Machine.each_of_forall fun x hx => And.intro (hxs x hx) (hissued x hx))
  rintro s ⟨r, n⟩ hs ⟨hf, htokens⟩
  rw [Gateway.handled_serve, hs, List.append_nil]
  cases ha : Gateway.arrive routeOf cfg s (r, n) with
  | answered status message => rfl
  | panicked => rfl
  | next h =>
    obtain ⟨text, tok, hb, htok, -, hsecret, -⟩ := Gateway.token_of_arrive hf hpublic ha
    exact absurd hsecret (hforeign.issued tok (htokens text tok hb htok))

end Foreign

/-! ### The token of a sign-in -/

/-- `demoToken`, signed with `old`. -/
def demoText : String :=
  "eyJ0eXAiOiJKV1QiLCJhbGciOiJIUzI1NiJ9." ++
    "eyJzdWIiOiIwMDAwMDAwMC0wMDAwLTAwMDAtMDAwMC0wMDAwMDAwMDAwMDciLCJlbWFpbCI6ImFAYi5jIiwicGVybW" ++
    "lzc2lvbnMiOltdLCJleHAiOjY5MTE5OSwiaWF0Ijo2MDQ3OTksImtpZCI6bnVsbH0." ++
    "-jN0Uwg-hoI4i3B3Eu7uiTZcrzyq9xifT7mootNzYbA"

def demoConfig : Gateway.Config :=
  { Gateway.demoConfig with
    jwtSecret := "config"
    tokenOf := fun text => if text = demoText then some demoToken else none }

theorem foreign_demoDb : Foreign demoConfig.jwtSecret demoDb := by
  refine ⟨fun k hk => ?_, nofun, nofun⟩
  rw [List.mem_singleton.1 hk]
  decide

/-- The key that replaces the old one is `new`. -/
theorem demo_drawn : ∀ d ∈ (demoPlay (demoSched 2000000 6)).1, ∀ key, d.op = .insertKey key →
    key.keySecret ≠ demoConfig.jwtSecret := by
  have hall : ∀ d ∈ (demoPlay (demoSched 2000000 6)).1,
      (match d.op with | .insertKey key => key.keySecret != "config" | _ => true) = true := by decide +kernel
  intro d hd key hop
  have hne := hall d hd
  rw [hop] at hne
  exact bne_iff_ne.1 hne

theorem issued_refused_demo : Gateway.validateTokenSync demoConfig 604800000000 demoText =
    .error (.InvalidToken "InvalidSignature") :=
  issued_refused foreign_demoDb (demoPlay_run (demoSched 2000000 6)) demo_drawn demoToken
    (by decide +kernel) _ demoText (by decide +kernel)

/-- A read with the token. -/
def demoRead : Gateway.HttpRequest :=
  { Gateway.demoRead with headers := [("authorization", Text.utf8 ("Bearer " ++ demoText))] }

theorem nothing_handled_demo : (Machine.run (Gateway.serve demoConfig Gateway.demoRoute) .new
    [(demoRead, Gateway.demoMoment)]).handled = [] := by
  refine nothing_handled foreign_demoDb (demoPlay_run (demoSched 2000000 6)) demo_drawn
    (fun method path permissions h => ?_) (fun x hx => ?_) fun x _ text tok _ htok => ?_
  · unfold Gateway.demoRoute at h
    split at h
    · exact nomatch h
    · split at h
      · exact nomatch h
      · next hpublic => exact Bool.eq_false_iff.2 hpublic
  · rw [List.mem_singleton.1 hx]
    exact .inl rfl
  · have hmem : demoToken ∈ (demoPlay (demoSched 2000000 6)).2.store.issued := by decide +kernel
    simp only [demoConfig] at htok
    split at htok
    · rwa [← Option.some.inj htok]
    · exact nomatch htok

end IntentX.Jwt
