import Mathlib.Data.List.Pairwise
import IntentX.HtlcRuns

/-!
# Safety of HTLC swaps

Every statement is about all interleavings of any number of callers and workers, from a database
without swaps, with the clock going on and the database failing as it likes (`Turn`).

* `htlc_secrets_bound`: a stored secret is one for the stored hash, the hash never changes, and a
  claimed swap has its secret.
* `htlc_status_path`: the statuses of a swap form a path of the life cycle, a swap is not both
  claimed and refunded, and no refund comes before the timelock.
-/

namespace IntentX

open Lib

/-- A database and the requests that are going to run on it. -/
def htlcPool {ι : Type} (sha256 : Secret → SecretHash) (bridges : BridgeRegistry) (reqs : ι → HtlcReq)
    (db : HtlcDb) : Pool HtlcAct HtlcAct.Reply HtlcActError HtlcDb ι :=
  ⟨db, fun i => (reqs i).task sha256 bridges⟩

theorem HtlcDb.swap_none_of_empty {db : HtlcDb} (h : db.swaps.rows = []) (id : Uuid) :
    db.swap id = none := by
  unfold HtlcDb.swap Table.find
  rw [h]
  rfl

theorem HtlcInv.of_empty {db : HtlcDb} (h : db.swaps.rows = []) (sha256 : Secret → SecretHash)
    (bind : Bool) : HtlcInv sha256 bind db := by
  have hnone := HtlcDb.swap_none_of_empty h
  constructor
  · intro id s hs
    rw [hnone] at hs
    cases hs
  · intro id s hs
    rw [hnone] at hs
    cases hs
  · intro _ id s hs
    rw [hnone] at hs
    cases hs

theorem reqs_obey {ι : Type} (sha256 : Secret → SecretHash) (bridges : BridgeRegistry)
    (reqs : ι → HtlcReq) {bind : Bool} (hc : bind = true → ∀ i, (reqs i).checked = true) (i : ι) :
    (htlcProtocol sha256 bind fun i => (reqs i).mayFail = true).Obeys i
      ((reqs i).task sha256 bridges) :=
  HtlcReq.obeys (fun hb => hc hb i) fun h => h

/-- A protocol that asks for no more than `htlcProtocol`, and lets the others do no more. -/
theorem reqs_obey_of {ι : Type} (P : Protocol execHtlc ι) (sha256 : Secret → SecretHash)
    (bridges : BridgeRegistry) (reqs : ι → HtlcReq) (bind : Bool)
    (hc : bind = true → ∀ i, (reqs i).checked = true)
    (hrely : ∀ x y, P.rely x y → Persists x.2 y.2)
    (hinv : ∀ x, P.inv x → HtlcInv sha256 bind x.2)
    (hmay : ∀ i x o, Justified sha256 bind ((reqs i).mayFail = true) x.2 o → P.may i x o) (i : ι) :
    P.Obeys i ((reqs i).task sha256 bridges) := by
  intro x
  have h := reqs_obey sha256 bridges reqs hc i x
  exact h.of_protocol hrely hinv (fun _ _ _ => trivial) (hmay i)

/-! ## A swap that goes through

The user opens a swap for a fill of intent 5 and hands in the secret; the worker makes one round. -/

/-- 32 zero bytes. -/
def demoSecret : Secret := ⟨List.replicate 32 0, rfl⟩

/-- SHA-256 of `demoSecret`, whatever it is asked for. -/
def demoSha256 : Secret → SecretHash := fun _ =>
  ⟨[0x66, 0x68, 0x7a, 0xad, 0xf8, 0x62, 0xbd, 0x77, 0x6c, 0x8f, 0xc1, 0x8b, 0x8e, 0x9f, 0x8e, 0x20,
    0x08, 0x97, 0x14, 0x85, 0x6e, 0xe2, 0x33, 0xb3, 0x90, 0x2a, 0x59, 0x1d, 0x0d, 0x5f, 0x29, 0x25],
    rfl⟩

def demoSwapParams : CreateHtlcParams :=
  { fillId := 6, intentId := 5, solverId := "solver", sourceChain := "ethereum",
    sourceSender := "0xuser", sourceReceiver := "0xsolver", sourceToken := none,
    sourceAmount := 100, destChain := "solana", destSender := "solver", destReceiver := "user",
    destToken := none, destAmount := 90, timelockSecs := 60 }

def demoHtlcDb : HtlcDb := ⟨[5], .empty, 0, []⟩

/-- One bridge, for all routes. -/
def demoBridges : BridgeRegistry := [fun _ _ => true]

def demoReqs : Nat → HtlcReq
  | 0 => .createSwap 1 demoSecret demoSwapParams
  | 1 => .storeSecret 1 demoSecret
  | _ => .worker 1

/-- Everything works, and `elapse` microseconds pass. -/
def demoTurn (fate : Fate) (elapse : Nat) : Turn :=
  { elapse, fate, lock := fun _ => .ok ⟨"0xlock", "msg", 0⟩,
    verify := fun _ => .ok (.Completed "0xdest"), release := fun _ _ => .ok "0xrelease" }

/-- A run of the demo requests. -/
def demoPlay (sched : List (Nat × Turn)) :
    List (Done HtlcAct HtlcDb Nat) × Pool HtlcAct HtlcAct.Reply HtlcActError HtlcDb Nat :=
  Pool.play execHtlc sched ([], htlcPool demoSha256 demoBridges demoReqs demoHtlcDb)

theorem demoPlay_run (sched : List (Nat × Turn)) :
    Pool.Run execHtlc (htlcPool demoSha256 demoBridges demoReqs demoHtlcDb) (demoPlay sched).1
      (demoPlay sched).2 := by
  apply Pool.Run.play
  exact .start

/-- The swap is opened, the secret is stored, and the worker runs for `n` acts. -/
def demoSched (n : Nat) : List (Nat × Turn) :=
  ([0, 0, 1, 1] ++ List.replicate n 2).map fun i => (i, demoTurn .served 1)

section Runs

variable {ι : Type} [DecidableEq ι] (sha256 : Secret → SecretHash) (bridges : BridgeRegistry)
  (reqs : ι → HtlcReq) (db₀ : HtlcDb) (l : List (Done HtlcAct HtlcDb ι))
  (p : Pool HtlcAct HtlcAct.Reply HtlcActError HtlcDb ι)

/-! ## Secrets -/

/-- **The secret is bound to the hash.** -/
theorem htlc_secrets_bound (hdb : db₀.swaps.rows = []) (hreq : ∀ i, (reqs i).checked = true)
    (run : Pool.Run execHtlc (htlcPool sha256 bridges reqs db₀) l p) :
    (∀ s ∈ p.store.swaps.rows, ∀ b, s.secret = some b → Opens sha256 b s.secretHash) ∧
    (∀ d ∈ l, ∀ s ∈ d.store.swaps.rows,
      ∃ s' ∈ p.store.swaps.rows, s'.id = s.id ∧ s'.secretHash = s.secretHash) ∧
    ∀ s ∈ p.store.swaps.rows, s.status = .DestClaimed ∨ s.status = .SourceUnlocked →
      s.secret.isSome = true := by
  obtain ⟨hkept, -⟩ := Protocol.run_follows
    (P := htlcProtocol sha256 true fun i => (reqs i).mayFail = true) run
    (Protocol.given_of_forall (fun _ _ _ => trivial) l) (HtlcInv.of_empty hdb sha256 true)
    fun i => reqs_obey sha256 bridges reqs (fun _ => hreq) i _
  have hbound : ∀ s ∈ p.store.swaps.rows, Bound sha256 s := fun s hs =>
    hkept.inv.bound rfl s.id s (HtlcDb.swap_some_iff.2 ⟨hs, rfl⟩)
  refine ⟨fun s hs => (hbound s hs).opens, fun d hd s hs => ?_, fun s hs => (hbound s hs).revealed⟩
  obtain ⟨l', -, -, -, hpers⟩ := hkept.past d hd
  obtain ⟨s', hs', hhash, -, -⟩ := hpers.swap s.id s (HtlcDb.swap_some_iff.2 ⟨hs, rfl⟩)
  obtain ⟨hmem, hid⟩ := HtlcDb.swap_some_iff.1 hs'
  exact ⟨s', hmem, hid, hhash⟩

end Runs

theorem demo_secret_bound :
    (demoPlay (demoSched 16)).2.store.swaps.rows.map (·.status) = [.SourceUnlocked] ∧
    ∀ s ∈ (demoPlay (demoSched 16)).2.store.swaps.rows,
      s.status = .DestClaimed ∨ s.status = .SourceUnlocked → s.secret.isSome = true := by
  refine ⟨by decide +kernel, ?_⟩
  have hall := htlc_secrets_bound demoSha256 demoBridges demoReqs demoHtlcDb _ _ rfl
    (fun i => by rcases i with _ | _ | i <;> rfl) (demoPlay_run (demoSched 16))
  exact hall.2.2

/-! ## The life cycle -/

section Runs

variable {ι : Type}

/-- The transitions of the life cycle. -/
def HtlcStatus.goesTo : HtlcStatus → HtlcStatus → Bool
  | .Created, .SourceLocked | .SourceLocked, .DestClaimed | .DestClaimed, .SourceUnlocked => true
  | .Created, .Refunded | .SourceLocked, .Refunded => true
  | st, .Failed => !st.isTerminal
  | _, _ => false

/-- The statuses that a swap has had, newest first, each with the time of the act that set it. -/
def statusHistory (id : Uuid) : List (Done HtlcAct HtlcDb ι) → HtlcDb → List (HtlcStatus × Int)
  | [], db => ((db.swap id).map fun s => (s.status, db.clock)).toList
  | d :: l, db =>
    match db.swap id with
    | none => statusHistory id l d.store
    | some s =>
      if (statusHistory id l d.store).head?.map Prod.fst = some s.status then
        statusHistory id l d.store
      else (s.status, d.store.clock) :: statusHistory id l d.store

end Runs

/-- A written status is the old one or the next. -/
theorem Writes.goesTo {clock : Int} {st : HtlcStmt} {s s' : HtlcSwap} (h : Writes clock st s s')
    (hk : s.status ≠ .Expired) : s'.status = s.status ∨ s.status.goesTo s'.status = true := by
  cases h with
  | secret b hst => exact .inl rfl
  | destLock tx hst => exact .inl rfl
  | refunded hst => rcases hst with hst | hst <;> exact .inr (by rw [hst]; rfl)
  | failed e hst =>
    cases hs : s.status <;> simp_all [HtlcStatus.goesTo, HtlcStatus.isTerminal]
  | sourceLocked tx hst | destClaimed b tx hst | destClaimedOnly tx hst | sourceUnlocked tx hst =>
    exact .inr (by rw [hst]; rfl)

section Runs

variable {ι : Type}

/-- What is so of the history of a swap. -/
structure GoodHistory (id : Uuid) (l : List (Done HtlcAct HtlcDb ι)) (db : HtlcDb) : Prop where
  newest : (statusHistory id l db).head?.map Prod.fst = (db.swap id).map (·.status)
  oldest : ∀ e ∈ (statusHistory id l db).getLast?, e.1 = .Created
  path : ((statusHistory id l db).map Prod.fst).IsChain fun newer older => older.goesTo newer = true
  timed : ∀ t s, (.Refunded, t) ∈ statusHistory id l db → db.swap id = some s →
    s.sourceTimelock ≤ t

theorem statusHistory_same {id : Uuid} {l : List (Done HtlcAct HtlcDb ι)}
    {d : Done HtlcAct HtlcDb ι} {db : HtlcDb} (h : GoodHistory id l d.store)
    (hs : (db.swap id).map (·.status) = (d.store.swap id).map (·.status)) :
    statusHistory id (d :: l) db = statusHistory id l d.store := by
  have hn := h.newest
  rw [← hs] at hn
  simp only [statusHistory]
  rcases hdb : db.swap id with _ | s
  · rfl
  · rw [hdb, Option.map_some] at hn
    simp only [hn, if_true]

theorem statusHistory_new {id : Uuid} {l : List (Done HtlcAct HtlcDb ι)}
    {d : Done HtlcAct HtlcDb ι} {db : HtlcDb} {s : HtlcSwap} (h : GoodHistory id l d.store)
    (hs : db.swap id = some s) (hne : (d.store.swap id).map (·.status) ≠ some s.status) :
    statusHistory id (d :: l) db = (s.status, d.store.clock) :: statusHistory id l d.store := by
  simp only [statusHistory, hs, h.newest, if_neg hne]

/-- The history goes on unchanged while the status does. -/
theorem GoodHistory.same {id : Uuid} {l : List (Done HtlcAct HtlcDb ι)} {d : Done HtlcAct HtlcDb ι}
    {db : HtlcDb} (h : GoodHistory id l d.store)
    (hs : (db.swap id).map (·.status) = (d.store.swap id).map (·.status))
    (ht : ∀ s, db.swap id = some s →
      ∃ s₀, d.store.swap id = some s₀ ∧ s.sourceTimelock = s₀.sourceTimelock) :
    GoodHistory id (d :: l) db := by
  have hsame := statusHistory_same h hs
  constructor
  · rw [hsame, h.newest, hs]
  · rw [hsame]
    exact h.oldest
  · rw [hsame]
    exact h.path
  · rw [hsame]
    intro t s hmem hdb
    obtain ⟨s₀, hs₀, heq⟩ := ht s hdb
    rw [heq]
    exact h.timed t s₀ hmem hs₀

/-- The history of a new swap starts with `Created`. -/
theorem GoodHistory.new {id : Uuid} {l : List (Done HtlcAct HtlcDb ι)} {d : Done HtlcAct HtlcDb ι}
    {db : HtlcDb} {s : HtlcSwap} (h : GoodHistory id l d.store) (hnone : d.store.swap id = none)
    (hs : db.swap id = some s) (hst : s.status = .Created) : GoodHistory id (d :: l) db := by
  have hempty : statusHistory id l d.store = [] := by
    have hn := h.newest
    rw [hnone] at hn
    simpa using hn
  have hnew := statusHistory_new h hs (by simp [hnone])
  rw [hempty] at hnew
  constructor
  · rw [hnew, hs]
    rfl
  · rw [hnew]
    simp [hst]
  · rw [hnew]
    simp
  · rw [hnew, hst]
    simp

/-- A transition extends the history. -/
theorem GoodHistory.extend {id : Uuid} {l : List (Done HtlcAct HtlcDb ι)}
    {d : Done HtlcAct HtlcDb ι} {db : HtlcDb} {s s' : HtlcSwap} (h : GoodHistory id l d.store)
    (hs : d.store.swap id = some s) (hs' : db.swap id = some s') (hne : s'.status ≠ s.status)
    (hgo : s.status.goesTo s'.status = true) (htime : s'.sourceTimelock = s.sourceTimelock)
    (href : s'.status = .Refunded → s'.sourceTimelock ≤ d.store.clock) :
    GoodHistory id (d :: l) db := by
  have hnew := statusHistory_new h hs' (by simpa [hs] using hne.symm)
  have hhead := h.newest
  rw [hs, Option.map_some] at hhead
  obtain ⟨e, rest, hlist⟩ : ∃ e rest, statusHistory id l d.store = e :: rest := by
    rcases hl : statusHistory id l d.store with _ | ⟨e, rest⟩
    · rw [hl] at hhead
      cases hhead
    · exact ⟨e, rest, rfl⟩
  constructor
  · rw [hnew, hs']
    rfl
  · rw [hnew, hlist, List.getLast?_cons_cons, ← hlist]
    exact h.oldest
  · have hpath := h.path
    rw [hlist] at hhead hpath
    have he : e.1 = s.status := Option.some.inj hhead
    rw [hnew, List.map_cons, hlist, List.map_cons, List.isChain_cons_cons, he]
    rw [List.map_cons, he] at hpath
    exact ⟨hgo, hpath⟩
  · intro t s'' hmem hs''
    rw [hs'] at hs''
    cases hs''
    rw [hnew] at hmem
    rcases List.mem_cons.1 hmem with hfirst | hmem
    · obtain ⟨hst, rfl⟩ := Prod.mk.inj hfirst
      exact href hst.symm
    · rw [htime]
      exact h.timed t s hmem hs

theorem GoodHistory.step {id : Uuid} {l : List (Done HtlcAct HtlcDb ι)} {db : HtlcDb}
    {sha256 : Secret → SecretHash} {mayFail : Prop} (h : GoodHistory id l db)
    (hinv : HtlcInv sha256 false db) (i : ι) (n : Turn) {o : HtlcAct}
    (hj : Justified sha256 false mayFail db o) :
    GoodHistory id (⟨i, o, db⟩ :: l) (execHtlc n o db).2 := by
  have hkeep : (execHtlc n o db).2.swap id = db.swap id →
      GoodHistory id (⟨i, o, db⟩ :: l) (execHtlc n o db).2 := by
    intro hsame
    refine GoodHistory.same h (by rw [hsame]) fun s hs => ⟨s, ?_, rfl⟩
    exact hsame.symm.trans hs
  rcases execHtlc_swap n o db id with hsame | ⟨st, rfl, hsame | ⟨s', rfl, -, hnone, hs'⟩ |
    ⟨s, s', hs, hs', hw⟩⟩
  · exact hkeep hsame
  · exact hkeep hsame
  · exact GoodHistory.new h hnone hs' hj.1
  · have htime := hw.keeps.2.1
    by_cases heq : s'.status = s.status
    · refine GoodHistory.same h (by rw [hs', hs, Option.map_some, Option.map_some, heq]) ?_
      intro s'' hs''
      rw [hs'] at hs''
      cases hs''
      exact ⟨s, hs, htime⟩
    · have hid := (HtlcDb.swap_some_iff.1 hs).2
      exact GoodHistory.extend h hs hs' heq ((hw.goesTo (hinv.known id s hs)).resolve_left heq) htime
        (hw.timed (hid.symm ▸ hs) hj (hinv.timed id s hs))

/-- The protocol with the histories. -/
def historyProtocol (sha256 : Secret → SecretHash) (mayFail : ι → Prop) : Protocol execHtlc ι where
  inv x := HtlcInv sha256 false x.2 ∧ ∀ id, GoodHistory id x.1 x.2
  rely x y := Persists x.2 y.2
  may i x o := Justified sha256 false (mayFail i) x.2 o
  given _ _ _ := True
  refl := Persists.rely_refl
  trans := @Persists.rely_trans ι
  step n hinv hmay _ :=
    ⟨⟨hinv.1.step n hmay, fun id => (hinv.2 id).step hinv.1 _ n hmay⟩, execHtlc_persists n _ _⟩

theorem GoodHistory.of_empty {db : HtlcDb} (h : db.swaps.rows = []) (id : Uuid) :
    GoodHistory id ([] : List (Done HtlcAct HtlcDb ι)) db := by
  have hnone := HtlcDb.swap_none_of_empty h id
  constructor <;> simp [statusHistory, hnone]

/-- What can follow a status, however much later. -/
def HtlcStatus.leadsTo : HtlcStatus → HtlcStatus → Bool
  | .Created, st => st != .Created && st != .Expired
  | .SourceLocked, st => st != .Created && st != .SourceLocked && st != .Expired
  | .DestClaimed, st => st == .SourceUnlocked || st == .Failed
  | _, _ => false

theorem HtlcStatus.leadsTo_of_goesTo {a b : HtlcStatus} (h : a.goesTo b = true) :
    a.leadsTo b = true := by
  revert h
  cases a <;> cases b <;> decide

theorem HtlcStatus.leadsTo_trans {a b c : HtlcStatus} (h : a.leadsTo b = true)
    (h' : b.leadsTo c = true) : a.leadsTo c = true := by
  revert h h'
  cases a <;> cases b <;> cases c <;> decide

/-- On a path of the life cycle a claim and a refund exclude each other. -/
theorem claimed_or_refunded {l : List HtlcStatus}
    (h : l.IsChain fun newer older => older.goesTo newer = true) :
    ¬ (.DestClaimed ∈ l ∧ .Refunded ∈ l) := by
  have hpair : l.Pairwise fun newer older => older.leadsTo newer = true := by
    have htrans : IsTrans HtlcStatus fun newer older => older.leadsTo newer = true :=
      ⟨fun a b c hab hbc => HtlcStatus.leadsTo_trans hbc hab⟩
    exact List.isChain_iff_pairwise.1 (h.imp fun _ _ => HtlcStatus.leadsTo_of_goesTo)
  have hsymm : Std.Symm fun a b : HtlcStatus => a.leadsTo b = true ∨ b.leadsTo a = true :=
    ⟨fun _ _ h => h.symm⟩
  have hboth : l.Pairwise fun a b => a.leadsTo b = true ∨ b.leadsTo a = true :=
    hpair.imp fun h => .inr h
  rintro ⟨hc, hr⟩
  rcases hboth.forall hc hr (by decide) with h | h <;> exact absurd h (by decide)

variable [DecidableEq ι] (sha256 : Secret → SecretHash) (bridges : BridgeRegistry)
  (reqs : ι → HtlcReq) (db₀ : HtlcDb) (l : List (Done HtlcAct HtlcDb ι))
  (p : Pool HtlcAct HtlcAct.Reply HtlcActError HtlcDb ι)

/-- **The statuses of a swap form a path of the life cycle**, it is not both claimed and refunded,
and a refund does not come before the timelock. -/
theorem htlc_status_path (hdb : db₀.swaps.rows = [])
    (run : Pool.Run execHtlc (htlcPool sha256 bridges reqs db₀) l p) (id : Uuid) :
    (∀ e ∈ (statusHistory id l p.store).getLast?, e.1 = .Created) ∧
    ((statusHistory id l p.store).map Prod.fst).IsChain
      (fun newer older => older.goesTo newer = true) ∧
    ¬ (.DestClaimed ∈ (statusHistory id l p.store).map Prod.fst ∧
      .Refunded ∈ (statusHistory id l p.store).map Prod.fst) ∧
    ∀ t s, (.Refunded, t) ∈ statusHistory id l p.store → p.store.swap id = some s →
      s.sourceTimelock ≤ t := by
  have hobey := reqs_obey_of (historyProtocol sha256 fun i => (reqs i).mayFail = true) sha256 bridges
    reqs false nofun (fun _ _ h => h) (fun _ h => h.1) fun _ _ _ h => h
  obtain ⟨hkept, -⟩ := Protocol.run_follows
    (P := historyProtocol sha256 fun i => (reqs i).mayFail = true) run
    (Protocol.given_of_forall (fun _ _ _ => trivial) l)
    ⟨HtlcInv.of_empty hdb sha256 false, fun id => GoodHistory.of_empty hdb id⟩ fun i => hobey i _
  have hgood := hkept.inv.2 id
  exact ⟨hgood.oldest, hgood.path, claimed_or_refunded hgood.path, hgood.timed⟩

end Runs

theorem demo_status_path :
    (statusHistory 1 (demoPlay (demoSched 16)).1 (demoPlay (demoSched 16)).2.store).map Prod.fst =
      [.SourceUnlocked, .DestClaimed, .SourceLocked, .Created] ∧
    ¬ (.DestClaimed ∈
        (statusHistory 1 (demoPlay (demoSched 16)).1 (demoPlay (demoSched 16)).2.store).map Prod.fst ∧
      .Refunded ∈
        (statusHistory 1 (demoPlay (demoSched 16)).1 (demoPlay (demoSched 16)).2.store).map Prod.fst) := by
  refine ⟨by decide +kernel, ?_⟩
  have hall := htlc_status_path demoSha256 demoBridges demoReqs demoHtlcDb _ _ rfl
    (demoPlay_run (demoSched 16)) 1
  exact hall.2.2.1

end IntentX
