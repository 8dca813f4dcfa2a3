import IntentX.HtlcRelease
import IntentX.Lib.Crash

/-!
# The HTLC worker calls a bridge at most once for a swap

Lives of the HTLC worker that can end anywhere, with any statements of others between its acts.
`Watched` keeps the swaps `lock_funds` was called for beside the store.

The statuses of a swap only go up (`rank`): nothing leads back to `created`, or to `source_locked`
from further on.  So a status is the mark of an effect once it is recorded; `HtlcSingle` says that
every effect has its mark.
-/

namespace IntentX

open Lib

/-! ## The worker under watch -/

/-- What happens at an act: the statements of others before it, and its turn. -/
structure HtlcMoment where
  others : List HtlcStmt
  turn : Turn

def HtlcMoment.before (m : HtlcMoment) (db : HtlcDb) : HtlcDb :=
  m.others.foldl (fun db o => (execHtlcStmt o db).2) db

structure Watched where
  db : HtlcDb
  /-- the swaps `lock_funds` was called for -/
  locks : List Uuid

def HtlcAct.locks : HtlcAct → List Uuid
  | .lockFunds id _ => [id]
  | _ => []

def execWatched (m : HtlcMoment) : Handler HtlcAct HtlcAct.Reply HtlcActError Watched := fun o w =>
  ((execHtlc m.turn o (m.before w.db)).1,
    ⟨(execHtlc m.turn o (m.before w.db)).2, o.locks ++ w.locks⟩)

/-- The swaps whose destination funds were released, release by release. -/
def destReleases (effects : List Effect) : List Uuid :=
  effects.filterMap fun
    | .released .dest id _ _ _ => some id
    | _ => none

/-- The process lives on, and the database does not refuse its next statement. -/
def NextApplied : List HtlcMoment → Prop
  | [] => False
  | n :: _ => n.turn.fate ≠ .refused

/-- The process lives on, the database serves its next statement and does not refuse the one after. -/
def NextTwoApplied : List HtlcMoment → Prop
  | [] => False
  | n :: rest => n.turn.fate = .served ∧ NextApplied rest

instance : (ns : List HtlcMoment) → Decidable (NextApplied ns)
  | [] => isFalse id
  | n :: _ => inferInstanceAs (Decidable (n.turn.fate ≠ .refused))

instance : (ns : List HtlcMoment) → Decidable (NextTwoApplied ns)
  | [] => isFalse id
  | n :: rest => inferInstanceAs (Decidable (n.turn.fate = .served ∧ NextApplied rest))

/-- A lock is recorded, and so is a release of the destination funds that succeeds: the swap is read
back, and then the claim is written. -/
def HtlcCallsRecorded : HtlcAct → List HtlcMoment → Watched → Prop
  | .lockFunds .., _ :: rest, _ => NextApplied rest
  | .releaseFunds .dest _ params msg, n :: rest, _ =>
    (∃ tx, n.turn.release params msg = .ok tx) → NextTwoApplied rest
  | _, _, _ => True

instance : (o : HtlcAct) → (ns : List HtlcMoment) → (w : Watched) →
    Decidable (HtlcCallsRecorded o ns w)
  | .sql _, _, _ | .now, _, _ | .verifyLock .., _, _ | .releaseFunds .source .., _, _ => isTrue trivial
  | .lockFunds .., [], _ | .releaseFunds .dest .., [], _ => isTrue trivial
  | .lockFunds .., _ :: rest, _ => inferInstanceAs (Decidable (NextApplied rest))
  | .releaseFunds .dest _ params msg, n :: rest, _ =>
    inferInstanceAs (Decidable ((∃ tx, n.turn.release params msg = .ok tx) → NextTwoApplied rest))

/-! ## Statuses go up -/

def HtlcStatus.rank : HtlcStatus → Nat
  | .Created => 0
  | .SourceLocked => 1
  | _ => 2

/-- Swaps stay, with their hashes, and their statuses do not go back. -/
def Evolves (db db' : HtlcDb) : Prop :=
  ∀ id s, db.swap id = some s → ∃ s', db'.swap id = some s' ∧ s'.secretHash = s.secretHash ∧
    s.status.rank ≤ s'.status.rank

section Evolves

variable {db db' db'' : HtlcDb}

theorem Evolves.refl (db : HtlcDb) : Evolves db db := fun _ s hs => ⟨s, hs, rfl, le_refl _⟩

theorem Evolves.trans (h : Evolves db db') (h' : Evolves db' db'') : Evolves db db'' := by
  intro id s hs
  obtain ⟨s₁, hs₁, hhash, hrank⟩ := h id s hs
  obtain ⟨s₂, hs₂, hhash', hrank'⟩ := h' id s₁ hs₁
  exact ⟨s₂, hs₂, hhash'.trans hhash, hrank.trans hrank'⟩

theorem Writes.evolves {clock : Int} {o : HtlcStmt} {s s' : HtlcSwap} (h : Writes clock o s s') :
    s'.secretHash = s.secretHash ∧ s.status.rank ≤ s'.status.rank := by
  cases h with
  | secret b hst => exact ⟨rfl, le_refl _⟩
  | sourceLocked tx hst =>
    refine ⟨rfl, ?_⟩
    show s.status.rank ≤ 1
    rw [hst]
    decide
  | destLock tx hst => exact ⟨rfl, le_refl _⟩
  | destClaimed b tx hst =>
    refine ⟨rfl, ?_⟩
    show s.status.rank ≤ 2
    rw [hst]
    decide
  | destClaimedOnly tx hst =>
    refine ⟨rfl, ?_⟩
    show s.status.rank ≤ 2
    rw [hst]
    decide
  | sourceUnlocked tx hst =>
    refine ⟨rfl, ?_⟩
    show s.status.rank ≤ 2
    rw [hst]
    decide
  | refunded hst =>
    refine ⟨rfl, ?_⟩
    show s.status.rank ≤ 2
    rcases hst with hst | hst <;> rw [hst] <;> decide
  | failed e hst =>
    refine ⟨rfl, ?_⟩
    show s.status.rank ≤ 2
    cases s.status <;> decide

theorem Touched.evolves {o : HtlcStmt} {id : Uuid} {s : HtlcSwap} (h : Touched o id db db')
    (hs : db.swap id = some s) : ∃ s', db'.swap id = some s' ∧ s'.secretHash = s.secretHash ∧
      s.status.rank ≤ s'.status.rank := by
  rcases h with hsame | ⟨_, -, -, hnone, -⟩ | ⟨s₀, s', hs₀, hs', hw⟩
  · exact ⟨s, hsame.trans hs, rfl, le_refl _⟩
  · rw [hs] at hnone
    cases hnone
  · rw [hs] at hs₀
    cases hs₀
    exact ⟨s', hs', hw.evolves⟩

theorem evolves_stmt (o : HtlcStmt) (db : HtlcDb) : Evolves db (execHtlcStmt o db).2 := by
  intro id s hs
  exact (execHtlcStmt_swap o db id).evolves hs

theorem evolves_act (n : Turn) (o : HtlcAct) (db : HtlcDb) : Evolves db (execHtlc n o db).2 := by
  intro id s hs
  rcases execHtlc_swap n o db id with hsame | ⟨st, -, htouched⟩
  · exact ⟨s, hsame.trans hs, rfl, le_refl _⟩
  · exact htouched.evolves hs

theorem before_evolves (m : HtlcMoment) (db : HtlcDb) :
    Evolves db (m.before db) ∧ (m.before db).effects = db.effects := by
  unfold HtlcMoment.before
  induction m.others generalizing db with
  | nil => exact ⟨Evolves.refl db, rfl⟩
  | cons o os ih =>
    obtain ⟨hev, heff⟩ := ih (execHtlcStmt o db).2
    exact ⟨(evolves_stmt o db).trans hev, heff.trans (execHtlcStmt_effects o db)⟩

end Evolves

/-- The swap is there, with a status that far. -/
def Reached (db : HtlcDb) (id : Uuid) (r : Nat) : Prop := ∃ s, db.swap id = some s ∧ r ≤ s.status.rank

theorem Evolves.reached {db db' : HtlcDb} {id : Uuid} {r : Nat} (h : Evolves db db')
    (hr : Reached db id r) : Reached db' id r := by
  obtain ⟨s, hs, hrank⟩ := hr
  obtain ⟨s', hs', -, hle⟩ := h id s hs
  exact ⟨s', hs', hrank.trans hle⟩

/-- The row of a swap after an `UPDATE` of it. -/
theorem HtlcDb.swap_update_self {db : HtlcDb} {id : Uuid} {p : HtlcStatus → Bool}
    {f : HtlcSwap → HtlcSwap} {hf} {s : HtlcSwap} (hs : db.swap id = some s) :
    (db.update id p f hf).2.swap id = some (if p s.status then f s else s) := by
  have hfind : (db.update id p f hf).2.swap id = (db.swap id).map fun s =>
      if decide (s.id = id) && p s.status then f s else s := Table.find_update_pk _ _ hf id
  rw [hfind, hs, Option.map_some, decide_eq_true (HtlcDb.swap_some_iff.1 hs).2, Bool.true_and]

/-- The statement takes a swap as far as `r`. -/
def Marks (o : HtlcStmt) (id : Uuid) (r₀ r : Nat) : Prop :=
  ∀ db, Reached db id r₀ → Reached (execHtlcStmt o db).2 id r

theorem marks_setSourceLocked (id : Uuid) (tx : String) : Marks (.setSourceLocked id tx) id 0 1 := by
  rintro db ⟨s, hs, -⟩
  refine ⟨_, HtlcDb.swap_update_self hs, ?_⟩
  cases hst : s.status <;> simp [HtlcStatus.rank, hst]

theorem marks_setFailed (id : Uuid) (e : String) : Marks (.setFailed id e) id 0 1 := by
  rintro db ⟨s, hs, -⟩
  refine ⟨_, HtlcDb.swap_update_self hs, ?_⟩
  cases hst : s.status <;> simp [HtlcStatus.rank, hst]

theorem marks_setDestClaimed (id : Uuid) (b : Bytes) (tx : String) :
    Marks (.setDestClaimed id b tx) id 1 2 := by
  rintro db ⟨s, hs, hrank⟩
  refine ⟨_, HtlcDb.swap_update_self hs, ?_⟩
  cases hst : s.status <;> simp_all [HtlcStatus.rank]

/-! ## Acts of the worker -/

/-- An act other than a lock and a release of destination funds. -/
def SideWork : HtlcAct → Prop
  | .lockFunds .. | .releaseFunds .dest .. => False
  | _ => True

theorem Still.sideWork (o : HtlcAct) (h : Still o) : SideWork o := by
  cases o with
  | releaseFunds side => exact h.elim
  | lockFunds => exact h
  | sql | now | verifyLock => trivial

/-- Nothing was locked, no destination funds were released, and the statuses went up. -/
structure Goes (w w' : Watched) : Prop where
  locks : w'.locks = w.locks
  releases : destReleases w'.db.effects = destReleases w.db.effects
  evolves : Evolves w.db w'.db

section Acts

variable {w w' w'' : Watched} {id : Uuid}

theorem Goes.refl (w : Watched) : Goes w w := ⟨rfl, rfl, Evolves.refl _⟩

theorem Goes.trans (h : Goes w w') (h' : Goes w' w'') : Goes w w'' :=
  ⟨h'.locks.trans h.locks, h'.releases.trans h.releases, h.evolves.trans h'.evolves⟩

theorem exec_evolves (m : HtlcMoment) (o : HtlcAct) (w : Watched) :
    Evolves w.db (execWatched m o w).2.db :=
  (before_evolves m w.db).1.trans (evolves_act m.turn o _)

theorem releases_of_effects (es : List Effect) (m : HtlcMoment) (o : HtlcAct)
    (h : (serveAct m.turn o (m.before w.db)).2.effects = es ++ (m.before w.db).effects) :
    destReleases (execWatched m o w).2.db.effects = destReleases es ++ destReleases w.db.effects := by
  show destReleases (serveAct m.turn o (m.before w.db)).2.effects = _
  rw [h, (before_evolves m w.db).2]
  exact List.filterMap_append

theorem goes_exec (m : HtlcMoment) {o : HtlcAct} (ho : SideWork o) (w : Watched) :
    Goes w (execWatched m o w).2 := by
  refine ⟨?_, ?_, exec_evolves m o w⟩
  · cases o <;> first | exact ho.elim | rfl
  · have hnil : ∀ es : List Effect, (serveAct m.turn o (m.before w.db)).2.effects =
        es ++ (m.before w.db).effects → destReleases es = [] →
        destReleases (execWatched m o w).2.db.effects = destReleases w.db.effects := by
      intro es hes hnil
      rw [releases_of_effects es m o hes, hnil, List.nil_append]
    cases o with
    | sql st =>
      refine hnil [] ?_ rfl
      simp only [serveAct]
      cases m.turn.fate with
      | refused => rfl
      | served => exact execHtlcStmt_effects st _
      | lost => exact execHtlcStmt_effects st _
    | now => exact hnil [] rfl rfl
    | lockFunds id params => exact ho.elim
    | verifyLock id tx =>
      rcases bridge_effects (m.before w.db) (m.turn.verify tx) fun _ => [] with he | ⟨a, he⟩
      · exact hnil [] he rfl
      · exact hnil _ he rfl
    | releaseFunds side id params msg =>
      cases side with
      | dest => exact ho.elim
      | source =>
        rcases bridge_effects (m.before w.db) (m.turn.release params msg)
          fun tx => [.released .source id params msg tx] with he | ⟨a, he⟩
        · exact hnil [] he rfl
        · exact hnil _ he rfl

theorem exec_lockFunds (m : HtlcMoment) (id : Uuid) (params : BridgeTransferParams) (w : Watched) :
    (execWatched m (.lockFunds id params) w).2.locks = id :: w.locks ∧
      destReleases (execWatched m (.lockFunds id params) w).2.db.effects =
        destReleases w.db.effects := by
  refine ⟨rfl, ?_⟩
  rcases bridge_effects (m.before w.db) (m.turn.lock params) fun r => [.locked id params r.txHash]
    with he | ⟨a, he⟩
  · exact releases_of_effects [] m (.lockFunds id params) he
  · exact releases_of_effects [.locked id params a.txHash] m (.lockFunds id params) he

/-- A release of destination funds is an effect when it succeeds. -/
theorem exec_releaseFunds (m : HtlcMoment) (id : Uuid) (params : BridgeTransferParams) (msg : String)
    (w : Watched) :
    (∃ tx, m.turn.release params msg = .ok tx ∧
      (execWatched m (.releaseFunds .dest id params msg) w).1 = .ok tx ∧
      destReleases (execWatched m (.releaseFunds .dest id params msg) w).2.db.effects =
        id :: destReleases w.db.effects) ∨
    ((∃ e, (execWatched m (.releaseFunds .dest id params msg) w).1 = .error e) ∧
      destReleases (execWatched m (.releaseFunds .dest id params msg) w).2.db.effects =
        destReleases w.db.effects) := by
  cases hr : m.turn.release params msg with
  | ok tx =>
    refine .inl ⟨tx, rfl, ?_, ?_⟩
    · simp only [execWatched, execHtlc, serveAct, hr, HtlcDb.bridge]
    · refine releases_of_effects [.released .dest id params msg tx] m _ ?_
      simp only [serveAct, hr, HtlcDb.bridge]
  | error e =>
    refine .inr ⟨⟨.bridge e, ?_⟩, ?_⟩
    · simp only [execWatched, execHtlc, serveAct, hr, HtlcDb.bridge]
    · refine releases_of_effects [] m _ ?_
      simp only [serveAct, hr, HtlcDb.bridge, List.nil_append]

/-- A statement that is not refused leaves its mark. -/
theorem reached_exec {m : HtlcMoment} {o : HtlcStmt} {r₀ r : Nat} (hm : Marks o id r₀ r)
    (hf : m.turn.fate ≠ .refused) (hr : Reached w.db id r₀) :
    Reached (execWatched m (.sql o) w).2.db id r := by
  obtain ⟨s, hs, hrank⟩ := hm _ ((before_evolves m w.db).1.reached hr)
  refine ⟨s, ?_, hrank⟩
  rw [← hs]
  show (m.turn.fate.serve (execHtlcStmt o (m.before w.db)) (m.before w.db)).2.swap id = _
  cases hfate : m.turn.fate with
  | refused => exact absurd hfate hf
  | served => rfl
  | lost => rfl

end Acts

/-! ## The invariant -/

/-- No swap was locked twice or had its destination funds released twice. -/
structure HtlcSingle (w : Watched) : Prop where
  locks : Once w.locks fun id => Reached w.db id 1
  releases : Once (destReleases w.db.effects) fun id => Reached w.db id 2

/-- Swaps of a query whose call is still to be made: none is `done`, and each is there with its hash
and a status as far as `r`. -/
structure HtlcToDo (done : Watched → List Uuid) (r : Nat) (swaps : List HtlcSwap) (w : Watched) :
    Prop where
  single : HtlcSingle w
  distinct : (swaps.map fun s => s.id).Nodup
  undone : ∀ s ∈ swaps, s.id ∉ done w ∧ ∃ s', w.db.swap s.id = some s' ∧
    s'.secretHash = s.secretHash ∧ r ≤ s'.status.rank

def lockedSwaps (w : Watched) : List Uuid := w.locks

def claimedSwaps (w : Watched) : List Uuid := destReleases w.db.effects

section ToDo

variable {done : Watched → List Uuid} {r : Nat} {w w' w'' : Watched} {id : Uuid} {swap : HtlcSwap}
  {swaps : List HtlcSwap}

theorem HtlcSingle.goes (h : HtlcSingle w) (hg : Goes w w') : HtlcSingle w' := by
  refine ⟨?_, ?_⟩
  · rw [hg.locks]
    exact h.locks.mono fun _ => hg.evolves.reached
  · rw [hg.releases]
    exact h.releases.mono fun _ => hg.evolves.reached

/-- A lock with its record. -/
theorem HtlcSingle.locked (h : HtlcSingle w) (hnot : id ∉ w.locks) (hlocks : w'.locks = id :: w.locks)
    (hrel : destReleases w'.db.effects = destReleases w.db.effects) (hev : Evolves w.db w'.db)
    (hg : Goes w' w'') (hmark : Reached w''.db id 1) : HtlcSingle w'' := by
  have hreached : ∀ {r k}, Reached w.db k r → Reached w''.db k r := (hev.trans hg.evolves).reached
  refine ⟨?_, ?_⟩
  · rw [hg.locks, hlocks]
    exact (h.locks.mono fun _ => hreached).add hnot hmark
  · rw [hg.releases, hrel]
    exact h.releases.mono fun _ => hreached

/-- A release that succeeded, with its record. -/
theorem HtlcSingle.released (h : HtlcSingle w) (hnot : id ∉ destReleases w.db.effects)
    (hlocks : w'.locks = w.locks) (hrel : destReleases w'.db.effects = id :: destReleases w.db.effects)
    (hev : Evolves w.db w'.db) (hg : Goes w' w'') (hmark : Reached w''.db id 2) : HtlcSingle w'' := by
  have hreached : ∀ {r k}, Reached w.db k r → Reached w''.db k r := (hev.trans hg.evolves).reached
  refine ⟨?_, ?_⟩
  · rw [hg.locks, hlocks]
    exact h.locks.mono fun _ => hreached
  · rw [hg.releases, hrel]
    exact (h.releases.mono fun _ => hreached).add hnot hmark

/-- At most the first swap has been done. -/
theorem HtlcToDo.next (h : HtlcToDo done r (swap :: swaps) w) (hs : HtlcSingle w')
    (hdone : ∀ k ∈ done w', k = swap.id ∨ k ∈ done w) (hev : Evolves w.db w'.db) :
    HtlcToDo done r swaps w' := by
  obtain ⟨hswap, hdistinct⟩ := List.nodup_cons.1 h.distinct
  refine ⟨hs, hdistinct, fun s hmem => ?_⟩
  obtain ⟨hnot, s₁, hs₁, hhash, hrank⟩ := h.undone s (List.mem_cons_of_mem _ hmem)
  obtain ⟨s₂, hs₂, hhash', hrank'⟩ := hev _ s₁ hs₁
  refine ⟨fun hk => ?_, s₂, hs₂, hhash'.trans hhash, hrank.trans hrank'⟩
  rcases hdone _ hk with heq | hk
  · exact hswap (List.mem_map.2 ⟨s, hmem, heq⟩)
  · exact hnot hk

/-- Work that is neither a lock nor a claim, and on to the next swap. -/
theorem HtlcToDo.skip (h : HtlcToDo done r (swap :: swaps) w) (hg : Goes w w')
    (hdone : done w' = done w) : HtlcToDo done r swaps w' := by
  refine h.next (h.single.goes hg) (fun k hk => .inr ?_) hg.evolves
  rw [hdone] at hk
  exact hk

/-- The swaps of a query, none of which has gone further than `r`. -/
theorem toDo_htlcSelect {p : HtlcSwap → Bool} {key : HtlcSwap → Option Int} (hs : HtlcSingle w)
    (hp : ∀ s, p s = true → s.status.rank = r)
    (hdone : Once (done w) fun id => Reached w.db id (r + 1)) :
    HtlcToDo done r (w.db.select p key) w := by
  refine ⟨hs, ?_, fun s hmem => ?_⟩
  · have hfilter : ((w.db.swaps.rows.filter p).map fun s => s.id).Nodup :=
      w.db.swaps.pk_nodup.sublist (List.filter_sublist.map _)
    have hperm := List.perm_insertionSort (fun a b => nullsLast (key a) (key b) = true)
      (w.db.swaps.rows.filter p)
    exact (((hperm.map _).nodup_iff).2 hfilter).sublist ((List.take_sublist _ _).map _)
  · have hrow := HtlcDb.swap_of_select hmem
    have hfilter := (List.mem_insertionSort _).1 (List.mem_of_mem_take hmem)
    have hr : s.status.rank = r := hp s (List.mem_filter.1 hfilter).2
    refine ⟨fun hk => ?_, s, hrow, rfl, hr.ge⟩
    obtain ⟨s', hs', hrank⟩ := hdone.2 _ hk
    rw [hrow] at hs'
    cases hs'
    omega

end ToDo

/-! ## The phases -/

section Worker

variable {sha256 : Secret → SecretHash} {bridges : BridgeRegistry} {ns : List HtlcMoment} {w : Watched}

/-- Programs without locks and claims. -/
theorem lasts_sideWork {α : Type} {p : HtlcProg α} (hp : p.Issues SideWork) {K : Watched → Prop}
    (hK : ∀ w', Goes w w' → K w') (hI : ∀ w', K w' → HtlcSingle w') :
    Prog.Lasts execWatched HtlcCallsRecorded HtlcSingle (fun _ w' => K w') p ns w := by
  have hgoes : Prog.Lasts execWatched HtlcCallsRecorded (fun w' => Goes w w')
      (fun _ w' => Goes w w') p ns w :=
    Prog.lasts_of_issues (fun o ho n _ w' _ hw' => hw'.trans (goes_exec n ho w')) hp (Goes.refl w)
  exact hgoes.imp (fun w' hw' => hI w' (hK w' hw')) fun _ w' hw' => hK w' hw'

/-- The record of a call: the process is alive, and the statement takes effect. -/
theorem lasts_htlcRecord {E α : Type} {o : HtlcStmt} {f : HtlcActError → E}
    {g : o.Reply → Call HtlcAct HtlcAct.Reply HtlcActError E α} {id : Uuid} {r₀ r : Nat}
    {K : Watched → Prop} (hm : Marks o id r₀ r) (hnext : NextApplied ns) (hr : Reached w.db id r₀)
    (hK : ∀ w', Goes w w' → Reached w'.db id r → K w')
    (hg : ∀ a ns' w', K w' → Prog.Lasts execWatched HtlcCallsRecorded HtlcSingle (fun _ w' => K w')
      (g a).run ns' w') :
    Prog.Lasts execWatched HtlcCallsRecorded HtlcSingle (fun _ w' => K w')
      (Call.op (HtlcAct.sql o) f >>= g).run ns w := by
  have hstep : ∀ n ns', ns = n :: ns' → K (execWatched n (.sql o) w).2 := by
    intro n ns' hns
    rw [hns] at hnext
    exact hK _ (goes_exec (o := .sql o) n trivial w) (reached_exec hm hnext hr)
  refine Call.lasts_op (fun hnil => ?_) (fun n ns' a hns _ _ => ?_) fun n ns' e hns _ _ => ?_
  · rw [hnil] at hnext
    cases hnext
  · exact hg a ns' _ (hstep n ns' hns)
  · exact hstep n ns' hns

/-- What the worker counts does not change the store. -/
theorem lasts_counted {p : Htlc Unit} {K : Watched → Prop}
    (hp : Prog.Lasts execWatched HtlcCallsRecorded HtlcSingle (fun _ w' => K w') p.run ns w) :
    Prog.Lasts execWatched HtlcCallsRecorded HtlcSingle (fun _ w' => K w')
      (do
        match ← p.run with
        | .error _ => return 0
        | .ok _ => return 1 : HtlcProg Nat) ns w := by
  refine Prog.lasts_bind (hp.mono fun r w' hw' ns' => ?_)
  cases r <;> exact hw'

theorem lasts_lockSourceOne (swap : HtlcSwap) (swaps : List HtlcSwap)
    (hw : HtlcToDo lockedSwaps 0 (swap :: swaps) w) :
    Prog.Lasts execWatched HtlcCallsRecorded HtlcSingle (fun _ w' => HtlcToDo lockedSwaps 0 swaps w')
      (lockSourceOne bridges swap) ns w := by
  unfold lockSourceOne
  cases bridges.find swap.sourceChain swap.destChain with
  | error e =>
    refine lasts_sideWork ((failAndSkip_issues swap e.text).mono Still.sideWork) ?_
      fun w' hw' => hw'.single
    exact fun w' hg => hw.skip hg hg.locks
  | ok b =>
    refine Prog.lasts_call (fun _ => hw.single) fun n ns' _ hC => ?_
    obtain ⟨hlocks, hrel⟩ := exec_lockFunds n swap.id (lockParams swap) w
    have hev := exec_evolves n (.lockFunds swap.id (lockParams swap)) w
    rcases hx : execWatched n (.lockFunds swap.id (lockParams swap)) w with ⟨r, w₁⟩
    rw [hx] at hlocks hrel hev
    obtain ⟨hnot, s, hs, -, -⟩ := hw.undone swap List.mem_cons_self
    have hrow : Reached w₁.db swap.id 0 := hev.reached ⟨s, hs, Nat.zero_le _⟩
    have hdone : ∀ w', Goes w₁ w' → Reached w'.db swap.id 1 → HtlcToDo lockedSwaps 0 swaps w' := by
      intro w' hg hmark
      refine hw.next (hw.single.locked hnot hlocks hrel hev hg hmark) (fun k hk => ?_)
        (hev.trans hg.evolves)
      unfold lockedSwaps at hk
      rw [hg.locks, hlocks] at hk
      exact List.mem_cons.1 hk
    cases r with
    | ok receipt =>
      refine lasts_counted (lasts_htlcRecord (marks_setSourceLocked swap.id receipt.txHash) hC hrow
        hdone fun rows ns'' w' hw' => ?_)
      unfold Call.failIf
      split <;> exact hw'
    | error e =>
      have hfail : Prog.Lasts execWatched HtlcCallsRecorded HtlcSingle
          (fun _ w' => HtlcToDo lockedSwaps 0 swaps w')
          (failSwap swap.id ("Source lock failed: " ++ e.text)).run ns' w₁ :=
        lasts_htlcRecord (marks_setFailed swap.id _) hC hrow hdone fun _ _ _ hw' => hw'
      show Prog.Lasts _ _ _ _ (failAndSkip swap ("Source lock failed: " ++ e.text)) ns' w₁
      exact Prog.lasts_bind (hfail.mono fun _ _ hw' _ => hw')

theorem checkSecret_verified {s : HtlcSwap} {secret : Secret} {expected : SecretHash}
    (hhash : toSecret s.secretHash = some expected)
    (hver : verifySecret sha256 secret expected = true) : checkSecret sha256 s secret = pure () := by
  unfold checkSecret
  rw [hhash]
  show Call.failIf (verifySecret sha256 secret expected = false) HtlcError.SecretMismatch = _
  unfold Call.failIf
  rw [hver]
  rfl

/-- The row that is read back has the hash the worker has checked, so the claim is written. -/
theorem lasts_recordDestClaim {s : HtlcSwap} {secret : Secret} {expected : SecretHash} {tx : String}
    {K : Watched → Prop} {id : Uuid} (hnext : NextTwoApplied ns) (hs : w.db.swap id = some s)
    (hrank : 1 ≤ s.status.rank) (hhash : toSecret s.secretHash = some expected)
    (hver : verifySecret sha256 secret expected = true)
    (hK : ∀ w', Goes w w' → Reached w'.db id 2 → K w') :
    Prog.Lasts execWatched HtlcCallsRecorded HtlcSingle (fun _ w' => K w')
      (recordDestClaim sha256 id secret tx).run ns w := by
  rw [recordDestClaim, getSwap, bind_assoc]
  have hserved : ∀ n ns', ns = n :: ns' → ∃ s', s'.secretHash = s.secretHash ∧ NextApplied ns' ∧
      (execWatched n (.sql (.selectSwap id)) w).1 = .ok (some s') := by
    intro n ns' hns
    rw [hns] at hnext
    obtain ⟨s', hs', hhash', -⟩ := (before_evolves n w.db).1 id s hs
    refine ⟨s', hhash', hnext.2, ?_⟩
    simp only [execWatched, execHtlc, serveAct, hnext.1, Fate.serve, execHtlcStmt, hs',
      Call.mapError_ok]
  refine Call.lasts_op (fun hnil => ?_) (fun n ns' a hns _ hr => ?_) fun n ns' e hns _ hr => ?_
  · rw [hnil] at hnext
    cases hnext
  · obtain ⟨s', hhash', hnext', hr'⟩ := hserved n ns' hns
    rw [hr] at hr'
    cases hr'
    have hg := goes_exec (o := .sql (.selectSwap id)) n trivial w
    show Prog.Lasts _ _ _ _ (checkSecret sha256 s' secret >>= fun _ => transition
      (htlcSql (.setDestClaimed id secret.1 tx)) "Expected status: source_locked").run ns' _
    rw [checkSecret_verified (hhash'.symm ▸ hhash) hver, pure_bind]
    refine lasts_htlcRecord (marks_setDestClaimed id secret.1 tx) hnext'
      (hg.evolves.reached ⟨s, hs, hrank⟩) (fun w' hg' => hK w' (hg.trans hg')) fun rows ns'' w' hw' => ?_
    unfold Call.failIf
    split <;> exact hw'
  · obtain ⟨s', -, -, hr'⟩ := hserved n ns' hns
    rw [hr] at hr'
    cases hr'

theorem lasts_claimOne (swap : HtlcSwap) (swaps : List HtlcSwap)
    (hw : HtlcToDo claimedSwaps 1 (swap :: swaps) w) :
    Prog.Lasts execWatched HtlcCallsRecorded HtlcSingle (fun _ w' => HtlcToDo claimedSwaps 1 swaps w')
      (claimOne sha256 bridges swap) ns w := by
  have hskip : ∀ {p : HtlcProg Nat}, p.Issues SideWork → Prog.Lasts execWatched HtlcCallsRecorded
      HtlcSingle (fun _ w' => HtlcToDo claimedSwaps 1 swaps w') p ns w := fun hp =>
    lasts_sideWork hp (fun w' hg => hw.skip hg hg.releases) fun w' hw' => hw'.single
  have hfail : ∀ e, (failAndSkip swap e).Issues SideWork := fun e =>
    (failAndSkip_issues swap e).mono Still.sideWork
  unfold claimOne
  split
  · exact hskip trivial
  · next bytes _ =>
    split
    · exact hskip (hfail _)
    · next secret _ =>
      split
      · exact hskip (hfail _)
      · next expected hexpected =>
        split
        · next hver =>
          split
          · exact hskip trivial
          · refine Prog.lasts_call (fun _ => hw.single) fun n ns' _ hC => ?_
            have hrel := exec_releaseFunds n swap.id (claimParams swap)
              ("htlc_secret_" ++ toHex secret.1) w
            have hev := exec_evolves n (.releaseFunds .dest swap.id (claimParams swap)
              ("htlc_secret_" ++ toHex secret.1)) w
            have hlocks : (execWatched n (.releaseFunds .dest swap.id (claimParams swap)
              ("htlc_secret_" ++ toHex secret.1)) w).2.locks = w.locks := rfl
            rcases hx : execWatched n (.releaseFunds .dest swap.id (claimParams swap)
              ("htlc_secret_" ++ toHex secret.1)) w with ⟨r, w₁⟩
            rw [hx] at hrel hev hlocks
            obtain ⟨hnot, s, hs, hhash, hrank⟩ := hw.undone swap List.mem_cons_self
            obtain ⟨s₁, hs₁, hhash₁, hrank₁⟩ := hev _ s hs
            rcases hrel with ⟨tx, hok, rfl, hrel⟩ | ⟨⟨e, rfl⟩, hrel⟩
            · refine lasts_counted (lasts_recordDestClaim (hC ⟨tx, hok⟩) hs₁ (hrank.trans hrank₁)
                ?_ hver fun w' hg hmark => ?_)
              · rw [hhash₁, hhash]
                exact hexpected
              · refine hw.next (hw.single.released hnot hlocks hrel hev hg hmark) (fun k hk => ?_)
                  (hev.trans hg.evolves)
                unfold claimedSwaps at hk
                rw [hg.releases, hrel] at hk
                exact List.mem_cons.1 hk
            · exact hw.skip ⟨hlocks, hrel, hev⟩ hrel
        · exact hskip (hfail _)

theorem phaseUnlockSource_issues : (phaseUnlockSource sha256 bridges).Issues SideWork := by
  refine phase_issues (Call.issues_op trivial) fun s => ?_
  unfold unlockOne
  split
  · split
    · split
      · trivial
      · refine Prog.issues_bind (Prog.issues_ask trivial) fun r => ?_
        cases r with
        | ok tx =>
          refine Prog.issues_bind (Call.issues_bind (Call.issues_op trivial) fun _ =>
            Call.issues_failIf) fun r => ?_
          cases r <;> trivial
        | error e => trivial
    · exact (failAndSkip_issues s _).mono Still.sideWork
  · trivial

/-- A query that answers from the swaps. -/
theorem lasts_htlcRead {o : HtlcStmt} {v : HtlcDb → o.Reply}
    {Q : Except HtlcError o.Reply → Watched → Prop}
    (hv : ∀ db, execHtlcStmt o db = (.ok (v db), db))
    (hclock : ∀ (db : HtlcDb) (c : Int), v { db with clock := c } = v db) (hw : HtlcSingle w)
    (hok : ∀ w', Goes w w' → Q (.ok (v w'.db)) w') (herr : ∀ e w', Goes w w' → Q (.error e) w') :
    Prog.Lasts execWatched HtlcCallsRecorded HtlcSingle Q (htlcSql o).run ns w := by
  refine Prog.lasts_call (fun _ => hw) fun n ns' _ _ => ?_
  have hg := goes_exec (o := .sql o) n trivial w
  cases hf : n.turn.fate with
  | served =>
    have hans : (execWatched n (.sql o) w).1 = .ok (v (execWatched n (.sql o) w).2.db) := by
      simp only [execWatched, execHtlc, serveAct, hf, Fate.serve, hv, hclock, Call.mapError_ok]
    rw [hans]
    exact hok _ hg
  | refused =>
    have hans : (execWatched n (.sql o) w).1 = .error (.db .io) := by
      simp only [execWatched, execHtlc, serveAct, hf, Fate.serve]
    rw [hans]
    exact herr _ _ hg
  | lost =>
    have hans : (execWatched n (.sql o) w).1 = .error (.db .io) := by
      simp only [execWatched, execHtlc, serveAct, hf, Fate.serve]
    rw [hans]
    exact herr _ _ hg

theorem forSwaps_eq (body : HtlcSwap → HtlcProg Nat) (swaps : List HtlcSwap) :
    forSwaps body swaps = Prog.forEach body swaps := by
  induction swaps with
  | nil => rfl
  | cons s swaps ih =>
    show (body s >>= fun n => forSwaps body swaps >>= fun m => pure (n + m)) = _
    rw [ih]
    rfl

/-- What is to do after the query of a phase, or nothing is when it failed. -/
def HtlcAnswered (done : Watched → List Uuid) (r : Nat) :
    Except HtlcError (List HtlcSwap) → Watched → Prop
  | .error _, w => HtlcSingle w
  | .ok swaps, w => HtlcToDo done r swaps w

theorem lasts_phase {done : Watched → List Uuid} {r : Nat} {find : Htlc (List HtlcSwap)}
    {body : HtlcSwap → HtlcProg Nat}
    (hfind : Prog.Lasts execWatched HtlcCallsRecorded HtlcSingle (HtlcAnswered done r) find.run ns w)
    (hbody : ∀ swap swaps ns w, HtlcToDo done r (swap :: swaps) w →
      Prog.Lasts execWatched HtlcCallsRecorded HtlcSingle (fun _ w' => HtlcToDo done r swaps w')
        (body swap) ns w) :
    Prog.Lasts execWatched HtlcCallsRecorded HtlcSingle (fun _ w' => HtlcSingle w') (phase find body)
      ns w := by
  refine Prog.lasts_bind (hfind.mono fun a w' hw' ns' => ?_)
  cases a with
  | error e => exact hw'
  | ok swaps =>
    show Prog.Lasts _ _ _ _ (forSwaps body swaps) _ _
    rw [forSwaps_eq]
    exact (Prog.lasts_forEach hbody hw').mono fun _ w'' hw'' => hw''.single

theorem lasts_phaseLockSource (hw : HtlcSingle w) :
    Prog.Lasts execWatched HtlcCallsRecorded HtlcSingle (fun _ w' => HtlcSingle w')
      (phaseLockSource bridges) ns w := by
  refine lasts_phase (r := 0) ?_ fun swap swaps ns w => lasts_lockSourceOne swap swaps
  refine Call.lasts_op (fun _ => hw) (fun n ns' now _ _ _ => ?_) fun n ns' e _ _ _ => ?_
  · refine lasts_htlcRead (o := .selectPendingLocks now)
      (v := fun db => db.select (fun s => s.status == .Created && decide (now < s.sourceTimelock))
        fun s => some s.createdAt) (fun _ => rfl) (fun _ _ => rfl)
      (hw.goes (goes_exec (o := .now) n trivial w)) (fun w' hg => ?_) fun e w' hg => ?_
    · have hw' := (hw.goes (goes_exec (o := .now) n trivial w)).goes hg
      refine toDo_htlcSelect hw' (fun s hs => ?_) hw'.locks
      rw [eq_of_beq (Bool.and_eq_true_iff.1 hs).1]
      rfl
    · exact (hw.goes (goes_exec (o := .now) n trivial w)).goes hg
  · exact hw.goes (goes_exec (o := .now) n trivial w)

theorem lasts_phaseClaimDestination (hw : HtlcSingle w) :
    Prog.Lasts execWatched HtlcCallsRecorded HtlcSingle (fun _ w' => HtlcSingle w')
      (phaseClaimDestination sha256 bridges) ns w := by
  refine lasts_phase (r := 1) ?_ fun swap swaps ns w => lasts_claimOne swap swaps
  refine lasts_htlcRead (o := .selectClaimable)
    (v := fun db => db.select (fun s => s.status == .SourceLocked && s.destLockTx.isSome) (·.lockedAt))
    (fun _ => rfl) (fun _ _ => rfl) hw (fun w' hg => ?_) fun e w' hg => hw.goes hg
  have hw' := hw.goes hg
  refine toDo_htlcSelect hw' (fun s hs => ?_) hw'.releases
  rw [eq_of_beq (Bool.and_eq_true_iff.1 hs).1]
  rfl

/-- The worker locks and claims each swap at most once, wherever it crashes. -/
theorem lasts_htlcWorker (rounds : Nat) (hw : HtlcSingle w) :
    Prog.Lasts execWatched HtlcCallsRecorded HtlcSingle (fun _ w' => HtlcSingle w')
      (htlcWorker sha256 bridges rounds) ns w := by
  have hside : ∀ {α : Type} {p : HtlcProg α} {ns w}, p.Issues SideWork → HtlcSingle w →
      Prog.Lasts execWatched HtlcCallsRecorded HtlcSingle (fun _ w' => HtlcSingle w') p ns w :=
    fun hp hw => lasts_sideWork hp (fun _ => hw.goes) fun _ => id
  induction rounds generalizing ns w with
  | zero => exact hw
  | succ k ih =>
    refine Prog.lasts_bind ((lasts_phaseLockSource hw).mono fun _ w₁ hw₁ ns₁ => ?_)
    refine Prog.lasts_bind ((hside (phaseMonitorDestLock_issues.mono Still.sideWork) hw₁).mono
      fun _ w₂ hw₂ ns₂ => ?_)
    refine Prog.lasts_bind ((lasts_phaseClaimDestination hw₂).mono fun _ w₃ hw₃ ns₃ => ?_)
    refine Prog.lasts_bind ((hside phaseUnlockSource_issues hw₃).mono fun _ w₄ hw₄ ns₄ => ?_)
    exact Prog.lasts_bind ((hside (phaseRefundExpired_issues.mono Still.sideWork) hw₄).mono
      fun _ w₅ hw₅ ns₅ => ih hw₅)

end Worker

end IntentX
