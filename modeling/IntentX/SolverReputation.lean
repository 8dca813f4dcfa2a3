import IntentX.Basic
import IntentX.Lib.Rmw
import IntentX.Lib.Table

/-!
# The reputation of a solver

The four `record_…` calls and `penalize_failed_settlement` of `src/solver_reputation/service.rs` read
a solver, count on what they read, and write its counters back with the score that goes with them.
Between the two statements others do the same.

Whatever the order of the statements, the counters of a solver are those of all recorded trades if
and only if every update writes back what was read from the row as it is; and its score is always
that of its own counters (`reputation_exact_iff`).
-/

namespace IntentX.Reputation

open Lib Machine

/-- The columns that are counted up.  Counting by ones does not get to `2 ^ 63`; a volume is added
with wrap-around. -/
structure Counters where
  successfulTrades : Nat
  failedTrades : Nat
  totalVolume : Int
  totalFills : Nat
  failedFills : Nat
  deriving Repr, DecidableEq

def Counters.zero : Counters := ⟨0, 0, 0, 0, 0⟩

/-- A row of `solvers`, with a score of type `ρ`. -/
structure Solver (ρ : Type) where
  id : Uuid
  name : String
  email : Option String
  apiKey : Option String
  webhookUrl : Option String
  active : Bool
  counters : Counters
  reputationScore : ρ
  createdAt : Int
  deriving Repr, DecidableEq

/-- The arithmetic of the scores, which is that of `f64`. -/
structure Formula (ρ : Type) where
  zero : ρ
  score : Counters → ρ

def calculateReputation {ρ : Type} (F : Formula ρ) (c : Counters) : ρ :=
  if c.successfulTrades + c.failedTrades = 0 then F.zero else F.score c

/-- What is recorded. -/
inductive Kind
  | successfulTrade (volume : Int)
  | failedTrade
  | fill (volume : Int)
  | failedSettlement
  deriving Repr, DecidableEq

def Kind.count : Kind → Counters → Counters
  | .successfulTrade volume, c => { c with
      successfulTrades := c.successfulTrades + 1
      totalVolume := wrapI64 (c.totalVolume + volume)
      totalFills := c.totalFills + 1 }
  | .failedTrade, c => { c with
      failedTrades := c.failedTrades + 1
      failedFills := c.failedFills + 1 }
  | .fill volume, c => { c with
      totalFills := c.totalFills + 1
      totalVolume := wrapI64 (c.totalVolume + volume) }
  | .failedSettlement, c => { c with
      failedFills := c.failedFills + 1
      failedTrades := c.failedTrades + 1 }

/-! ## The table and the tasks -/

section Model

variable {ρ : Type} (F : Formula ρ)

abbrev Solvers (ρ : Type) := Table (Solver ρ) Solver.id Solver.id

/-- A call between its statements: the solver was not found, or it was read or created. -/
inductive Task (ρ : Type)
  | creating (kind : Kind) (id : Uuid) (name : String)
  | loaded (kind : Kind) (solver : Solver ρ)

/-- The table, the calls that are under way, and what was recorded of which solver, the latest first. -/
structure State (ρ : Type) where
  solvers : Solvers ρ
  tasks : Nat → Option (Task ρ)
  recorded : List (Uuid × Kind)

def State.new : State ρ := ⟨.empty, fun _ => none, []⟩

inductive Event
  /-- a call begins: `SELECT * FROM solvers WHERE id = $1` -/
  | select (i : Nat) (kind : Kind) (id : Uuid) (name : String) (fate : Fate)
  /-- `INSERT … ON CONFLICT (id) DO NOTHING RETURNING *` -/
  | insert (i : Nat) (now : Int) (fate : Fate)
  | update (i : Nat) (fate : Fate)
  /-- the `INSERT` of `register` -/
  | register (id : Uuid) (name : String) (email webhookUrl : Option String) (apiKey : String) (now : Int)
      (fate : Fate)
  | updateProfile (id : Uuid) (name email webhookUrl : Option String) (fate : Fate)
  | deactivate (id : Uuid) (fate : Fate)
  deriving Repr, DecidableEq

def State.set (s : State ρ) (i : Nat) (task : Option (Task ρ)) : Nat → Option (Task ρ) :=
  fun j => if j = i then task else s.tasks j

def findById (s : State ρ) (id : Uuid) : Option (Solver ρ) := s.solvers.find fun r => r.id = id

/-- A solver without trades. -/
def newSolver (id : Uuid) (name : String) (email apiKey webhookUrl : Option String) (now : Int) : Solver ρ :=
  ⟨id, name, email, apiKey, webhookUrl, true, .zero, F.zero, now⟩

/-- The unique indexes on `name`, `email` and `api_key`; a missing text is no duplicate. -/
def clashes (r r' : Solver ρ) : Bool :=
  r.name == r'.name || (r.email.isSome && r.email == r'.email) || (r.apiKey.isSome && r.apiKey == r'.apiKey)

/-- A row is stored unless it clashes with another one. -/
def State.store (s : State ρ) (solver : Solver ρ) : Option (Solvers ρ) :=
  if s.solvers.rows.any fun r => clashes r solver then none else s.solvers.insert solver

def record (kind : Kind) (solver : Solver ρ) : Solver ρ :=
  { solver with
    counters := kind.count solver.counters
    reputationScore := calculateReputation F (kind.count solver.counters) }

/-- `UPDATE solvers SET … WHERE id = $7` -/
def State.write (s : State ρ) (solver : Solver ρ) : Solvers ρ :=
  s.solvers.update (fun r => r.id = solver.id)
    (fun r => { r with counters := solver.counters, reputationScore := solver.reputationScore })
    fun _ => ⟨rfl, rfl⟩

/-- The table after the `INSERT` of `find_or_create` and what it returns: on a conflict, a solver
without trades that is not that of the table. -/
def State.create (s : State ρ) (id : Uuid) (name : String) (now : Int) : Option (Solver ρ × Solvers ρ) :=
  if (findById s id).isSome then some (newSolver F id name none none none now, s.solvers)
  else (s.store (newSolver F id name none none none now)).map fun t =>
    (newSolver F id name none none none now, t)

/-- `COALESCE` of what the request gives. -/
def Solver.profile (r : Solver ρ) (name email webhookUrl : Option String) : Solver ρ :=
  { r with
    name := name.getD r.name
    email := email.or r.email
    webhookUrl := webhookUrl.or r.webhookUrl }

/-- A statement; a call whose statement is not answered is over. -/
def step (s : State ρ) : Event → State ρ
  | .select i kind id name fate =>
    if (s.tasks i).isSome ∨ fate ≠ .served then s
    else
      match findById s id with
      | some solver => { s with tasks := s.set i (some (.loaded kind solver)) }
      | none => { s with tasks := s.set i (some (.creating kind id name)) }
  | .insert i now fate =>
    match s.tasks i with
    | some (.creating kind id name) =>
      match fate, s.create F id name now with
      | .served, some (solver, solvers) => { s with solvers, tasks := s.set i (some (.loaded kind solver)) }
      | .lost, some (_, solvers) => { s with solvers, tasks := s.set i none }
      | _, _ => { s with tasks := s.set i none }
    | _ => s
  | .update i fate =>
    match s.tasks i with
    | some (.loaded kind solver) =>
      if fate = .refused then { s with tasks := s.set i none }
      else { s with
        solvers := s.write (record F kind solver)
        tasks := s.set i none
        recorded := (solver.id, kind) :: s.recorded }
    | _ => s
  | .register id name email webhookUrl apiKey now fate =>
    match fate, s.store (newSolver F id name email (some apiKey) webhookUrl now) with
    | .refused, _ => s
    | _, some solvers => { s with solvers }
    | _, none => s
  | .updateProfile id name email webhookUrl fate =>
    match findById s id with
    | none => s
    | some row =>
      if fate = .refused ∨ s.solvers.rows.any fun r => r.id ≠ id && clashes r (row.profile name email webhookUrl)
      then s
      else { s with
        solvers := s.solvers.update (fun r => r.id = id) (fun r => r.profile name email webhookUrl)
          fun _ => ⟨rfl, rfl⟩ }
  | .deactivate id fate =>
    if fate = .refused then s
    else { s with
      solvers := s.solvers.update (fun r => r.id = id && r.active) (fun r => { r with active := false })
        fun _ => ⟨rfl, rfl⟩ }

/-! ## What a solver has to show -/

/-- The counters of a solver; one that is not there has none. -/
def State.counters (s : State ρ) (id : Uuid) : Counters := ((findById s id).map (·.counters)).getD .zero

/-- What was recorded of a solver, the latest first. -/
def State.recordedOf (s : State ρ) (id : Uuid) : List Kind :=
  (s.recorded.filter fun x => x.1 = id).map Prod.snd

/-- An update of the solver writes back what the row still holds. -/
def Fresh (id : Uuid) (s : State ρ) : Event → Prop
  | .update i fate => fate ≠ .refused → ∀ kind solver, s.tasks i = some (.loaded kind solver) →
      solver.id = id → solver.counters = s.counters id
  | _ => True

end Model

/-! ## One solver as a cell -/

section Cell

variable {ρ : Type} {F : Formula ρ} {s : State ρ} {id : Uuid}

/-- What the task has read of the solver. -/
def Task.held (id : Uuid) : Task ρ → Option Counters
  | .loaded _ solver => if solver.id = id then some solver.counters else none
  | .creating _ _ _ => none

/-- The counters of one solver, read, changed and written back. -/
def cellOf (id : Uuid) (s : State ρ) : Rmw.Cell Counters Kind Nat where
  first := .zero
  value := s.counters id
  held i := (s.tasks i).bind (Task.held id)
  written := s.recordedOf id

/-- What a statement does to the cell. -/
def cellEvents (F : Formula ρ) (id : Uuid) (s : State ρ) : Event → List (Rmw.Event Kind Nat)
  | .select i _ id' _ fate =>
    if id' = id ∧ s.tasks i = none ∧ fate = .served ∧ (findById s id').isSome then [.take i] else []
  | .insert i now fate =>
    match s.tasks i with
    | some (.creating _ id' name) =>
      if id' = id ∧ fate = .served ∧ (s.create F id' name now).isSome then
        if (findById s id').isSome then [.assume i] else [.take i]
      else []
    | _ => []
  | .update i fate =>
    match s.tasks i with
    | some (.loaded kind solver) =>
      if solver.id = id then if fate = .refused then [.drop i] else [.put i kind] else []
    | _ => []
  | _ => []

/-- A solver that a task has read is in the table. -/
def State.Inv (s : State ρ) : Prop :=
  ∀ i kind solver, s.tasks i = some (.loaded kind solver) → (findById s solver.id).isSome

/-- A change of the rows that leaves the counters alone. -/
theorem counters_update {p : Solver ρ → Bool} {f : Solver ρ → Solver ρ} (hf) (hkeep : ∀ r, (f r).counters = r.counters)
    (tasks : Nat → Option (Task ρ)) (recorded : List (Uuid × Kind)) (id : Uuid) :
    State.counters ⟨s.solvers.update p f hf, tasks, recorded⟩ id = s.counters id := by
  unfold State.counters findById
  rw [Table.find_update_pk, Option.map_map]
  congr 1
  refine congrArg (Option.map · _) (funext fun r => ?_)
  show (if p r then f r else r).counters = r.counters
  split
  · exact hkeep r
  · rfl

theorem isSome_findById_update {p : Solver ρ → Bool} {f : Solver ρ → Solver ρ} (hf)
    (tasks : Nat → Option (Task ρ)) (recorded : List (Uuid × Kind)) (id : Uuid) :
    (findById ⟨s.solvers.update p f hf, tasks, recorded⟩ id).isSome = (findById s id).isSome := by
  unfold findById
  rw [Table.find_update_pk, Option.isSome_map]

theorem store_some {solver : Solver ρ} {t : Solvers ρ} (h : s.store solver = some t) :
    s.solvers.insert solver = some t := by
  unfold State.store at h
  split at h
  · exact nomatch h
  · exact h

/-- A row that is stored is new. -/
theorem findById_store {solver : Solver ρ} {t : Solvers ρ} (h : s.store solver = some t)
    (tasks : Nat → Option (Task ρ)) (recorded : List (Uuid × Kind)) (id : Uuid) :
    findById ⟨t, tasks, recorded⟩ id = if id = solver.id then some solver else findById s id :=
  Table.find_insert_pk (store_some h) id

theorem findById_none_of_store {solver : Solver ρ} {t : Solvers ρ} (h : s.store solver = some t) :
    findById s solver.id = none := by
  unfold findById
  rw [Table.find_pk_none]
  intro r hr
  exact (Table.insert_isSome_iff.1 (Option.isSome_of_eq_some (store_some h)) r hr).1

/-- A new row has the counters of a row that is not there. -/
theorem counters_store {solver : Solver ρ} {t : Solvers ρ} (h : s.store solver = some t)
    (hzero : solver.counters = .zero) (tasks : Nat → Option (Task ρ)) (recorded : List (Uuid × Kind)) (id : Uuid) :
    State.counters ⟨t, tasks, recorded⟩ id = s.counters id := by
  unfold State.counters
  rw [findById_store h]
  split
  · next he =>
    rw [he, findById_none_of_store h]
    exact hzero
  · rfl

theorem held_set (i : Nat) (task : Option (Task ρ)) :
    (fun j => (s.set i task j).bind (Task.held id)) = (cellOf id s).hold i (task.bind (Task.held id)) := by
  funext j
  unfold State.set Rmw.Cell.hold
  split <;> rfl

/-- A task that has read nothing of the solver, before or after. -/
theorem held_set_same {i : Nat} {task : Option (Task ρ)}
    (h : task.bind (Task.held id) = (s.tasks i).bind (Task.held id)) :
    (fun j => (s.set i task j).bind (Task.held id)) = (cellOf id s).held := by
  funext j
  unfold State.set
  split
  · next he => rw [he]; exact h
  · rfl

/-- The counters of a row that is found. -/
theorem counters_of_find {solver : Solver ρ} (h : findById s id = some solver) :
    s.counters id = solver.counters := by
  unfold State.counters
  rw [h]
  rfl

theorem counters_of_find_none (h : findById s id = none) : s.counters id = .zero := by
  unfold State.counters
  rw [h]
  rfl

theorem id_of_find {solver : Solver ρ} (h : findById s id = some solver) : solver.id = id :=
  (Table.find_pk_iff.1 h).2

/-- Where counters and records are the same, the cells differ in what is held alone. -/
theorem cellOf_eq {s' : State ρ} {held : Nat → Option Counters} (hcounters : s'.counters id = s.counters id)
    (hrecorded : s'.recorded = s.recorded) (hheld : (fun j => (s'.tasks j).bind (Task.held id)) = held) :
    cellOf id s' = { cellOf id s with held } := by
  unfold cellOf State.recordedOf
  rw [hcounters, hrecorded, hheld]

theorem held_loaded {kind : Kind} {solver : Solver ρ} :
    (some (Task.loaded kind solver)).bind (Task.held id) =
      if solver.id = id then some solver.counters else none := rfl

theorem cellOf_select {i : Nat} {kind : Kind} {id' : Uuid} {name : String} {fate : Fate} :
    cellOf id (step F s (.select i kind id' name fate)) =
      run (Rmw.step Kind.count) (cellOf id s) (cellEvents F id s (.select i kind id' name fate)) := by
  simp only [step, cellEvents]
  by_cases hbusy : (s.tasks i).isSome ∨ fate ≠ .served
  · have hno : ¬ (id' = id ∧ s.tasks i = none ∧ fate = .served ∧ (findById s id').isSome) := by
      rintro ⟨-, hnone, hserved, -⟩
      rcases hbusy with hsome | hne
      · rw [hnone] at hsome
        exact nomatch hsome
      · exact hne hserved
    rw [if_pos hbusy, if_neg hno]
    rfl
  · rw [if_neg hbusy]
    simp only [not_or, Bool.not_eq_true, Option.isSome_eq_false_iff, Option.isNone_iff_eq_none, not_not] at hbusy
    obtain ⟨hfree, rfl⟩ := hbusy
    cases hfind : findById s id' with
    | none =>
      rw [if_neg (by simp)]
      refine cellOf_eq rfl rfl (held_set_same ?_)
      rw [hfree]
      rfl
    | some solver =>
      have hid := id_of_find hfind
      by_cases he : id' = id
      · subst he
        rw [if_pos ⟨rfl, hfree, rfl, rfl⟩]
        refine cellOf_eq rfl rfl ((held_set i _).trans ?_)
        rw [held_loaded, if_pos hid, ← counters_of_find hfind]
        rfl
      · rw [if_neg fun h => he h.1]
        refine cellOf_eq rfl rfl (held_set_same ?_)
        rw [held_loaded, if_neg fun h => he (hid.symm.trans h), hfree]
        rfl

theorem create_some {id' : Uuid} {name : String} {now : Int} {solver : Solver ρ} {t : Solvers ρ}
    (h : s.create F id' name now = some (solver, t)) :
    solver.id = id' ∧ solver.counters = .zero ∧
      (∀ tasks recorded, State.counters ⟨t, tasks, recorded⟩ id = s.counters id) ∧
      ∀ tasks recorded, (findById ⟨t, tasks, recorded⟩ id').isSome ∧
        ((findById s id).isSome → (findById ⟨t, tasks, recorded⟩ id).isSome) := by
  unfold State.create at h
  split at h
  · next hsome =>
    obtain ⟨rfl, rfl⟩ := Prod.mk.inj (Option.some.inj h)
    exact ⟨rfl, rfl, fun _ _ => rfl, fun _ _ => ⟨hsome, fun h => h⟩⟩
  · obtain ⟨t', ht', he⟩ := Option.map_eq_some_iff.1 h
    obtain ⟨rfl, rfl⟩ := Prod.mk.inj he
    refine ⟨rfl, rfl, fun _ _ => counters_store ht' rfl _ _ _, fun _ _ => ⟨?_, fun hs => ?_⟩⟩
    · rw [findById_store ht', if_pos (show id' = (newSolver F id' name none none none now).id from rfl)]
      rfl
    · rw [findById_store ht']
      split
      · rfl
      · exact hs

theorem cellOf_insert {i : Nat} {now : Int} {fate : Fate} :
    cellOf id (step F s (.insert i now fate)) =
      run (Rmw.step Kind.count) (cellOf id s) (cellEvents F id s (.insert i now fate)) := by
  simp only [step, cellEvents]
  rcases htask : s.tasks i with _ | ⟨kind, id', name⟩ | ⟨kind, solver⟩
  · rfl
  · have hover : (none : Option (Task ρ)).bind (Task.held id) = (s.tasks i).bind (Task.held id) := by
      rw [htask]
      rfl
    have hdrop : cellOf id { s with tasks := s.set i none } = cellOf id s :=
      cellOf_eq rfl rfl (held_set_same hover)
    dsimp only
    rcases hcreate : s.create F id' name now with _ | ⟨solver, t⟩
    · rw [if_neg (by simp)]
      cases fate <;> exact hdrop
    · obtain ⟨hid, hzero, hcounters, -⟩ := @create_some ρ F s id id' name now solver t hcreate
      cases fate with
      | refused =>
        rw [if_neg (by simp)]
        exact hdrop
      | lost =>
        rw [if_neg (by simp)]
        exact (cellOf_eq (hcounters _ _) rfl (held_set_same hover) :
          cellOf id ⟨t, s.set i none, s.recorded⟩ = cellOf id s)
      | served =>
        dsimp only
        by_cases he : id' = id
        · subst he
          have hheld : (some (Task.loaded kind solver)).bind (Task.held id') = some Counters.zero := by
            rw [held_loaded, if_pos hid, hzero]
          rw [if_pos ⟨rfl, rfl, rfl⟩]
          refine (cellOf_eq (hcounters _ _) rfl ((held_set i _).trans (by rw [hheld]))).trans ?_
          split
          · rfl
          · next hnone =>
            have hvalue : s.counters id' = .zero := counters_of_find_none (by simpa using hnone)
            show Rmw.Cell.mk _ _ _ _ = Rmw.Cell.mk _ _ _ _
            rw [← hvalue]
            rfl
        · rw [if_neg fun h => he h.1]
          refine cellOf_eq (hcounters _ _) rfl (held_set_same ?_)
          rw [held_loaded, if_neg fun h => he (hid.symm.trans h), htask]
          rfl
  · rfl

/-- What is written is the counters of the solver that was written. -/
theorem counters_write {solver : Solver ρ} (hin : (findById s solver.id).isSome)
    (tasks : Nat → Option (Task ρ)) (recorded : List (Uuid × Kind)) (id : Uuid) :
    State.counters ⟨s.write solver, tasks, recorded⟩ id =
      if id = solver.id then solver.counters else s.counters id := by
  unfold State.counters State.write findById
  rw [Table.find_update_pk]
  split
  · next he =>
    subst he
    obtain ⟨row, hrow⟩ := Option.isSome_iff_exists.1 hin
    have hid := id_of_find hrow
    unfold findById at hrow
    rw [hrow]
    show (if decide (row.id = solver.id) = true then _ else row).counters = _
    rw [if_pos (decide_eq_true hid)]
  · next hne =>
    cases hrow : s.solvers.find fun r => r.id = id with
    | none => rfl
    | some row =>
      have hid : row.id = id := (Table.find_pk_iff.1 hrow).2
      show (if decide (row.id = solver.id) = true then _ else row).counters = _
      rw [if_neg fun h => hne (hid.symm.trans (of_decide_eq_true h))]
      rfl

theorem cellOf_update {i : Nat} {fate : Fate} (hinv : s.Inv) :
    cellOf id (step F s (.update i fate)) =
      run (Rmw.step Kind.count) (cellOf id s) (cellEvents F id s (.update i fate)) := by
  simp only [step, cellEvents]
  rcases htask : s.tasks i with _ | ⟨kind, id', name⟩ | ⟨kind, solver⟩
  · rfl
  · rfl
  · have hin : (findById s (record F kind solver).id).isSome := hinv i kind solver htask
    have hnone : (none : Option (Task ρ)).bind (Task.held id) = none := rfl
    dsimp only
    by_cases he : solver.id = id
    · have hheld : (cellOf id s).held i = some solver.counters := by
        show (s.tasks i).bind (Task.held id) = _
        rw [htask, held_loaded, if_pos he]
      rw [if_pos he]
      by_cases hfate : fate = .refused
      · rw [if_pos hfate, if_pos hfate]
        exact cellOf_eq rfl rfl (held_set i none)
      · rw [if_neg hfate, if_neg hfate, run_cons, run_nil]
        simp only [Rmw.step, hheld]
        have hvalue := (counters_write hin (s.set i none) ((solver.id, kind) :: s.recorded) id).trans
          (if_pos he.symm)
        have hwritten : State.recordedOf
            ⟨s.write (record F kind solver), s.set i none, (solver.id, kind) :: s.recorded⟩ id =
              kind :: s.recordedOf id := by
          unfold State.recordedOf
          rw [List.filter_cons_of_pos (by simp [he])]
          rfl
        show Rmw.Cell.mk _ _ (fun j => (s.set i none j).bind (Task.held id)) _ = Rmw.Cell.mk _ _ _ _
        rw [hvalue, hwritten, held_set]
        rfl
    · have hsame : (none : Option (Task ρ)).bind (Task.held id) = (s.tasks i).bind (Task.held id) := by
        rw [htask, held_loaded, if_neg he]
        rfl
      rw [if_neg he]
      split
      · exact cellOf_eq rfl rfl (held_set_same hsame)
      · have hvalue := (counters_write hin (s.set i none) ((solver.id, kind) :: s.recorded) id).trans
          (if_neg fun h => he h.symm)
        have hwritten : State.recordedOf
            ⟨s.write (record F kind solver), s.set i none, (solver.id, kind) :: s.recorded⟩ id =
              s.recordedOf id := by
          unfold State.recordedOf
          rw [List.filter_cons_of_neg (by simp [he])]
        show Rmw.Cell.mk _ _ (fun j => (s.set i none j).bind (Task.held id)) _ = _
        rw [hvalue, hwritten, held_set_same hsame]
        rfl

/-- A step that keeps the rows of solvers and lets no task have read another one. -/
theorem inv_of {s' : State ρ} (h : s.Inv) (hrows : ∀ id, (findById s id).isSome → (findById s' id).isSome)
    (htasks : ∀ i kind solver, s'.tasks i = some (.loaded kind solver) →
      s.tasks i = some (.loaded kind solver) ∨ (findById s' solver.id).isSome) : s'.Inv := by
  intro i kind solver hi
  rcases htasks i kind solver hi with hi | hin
  · exact hrows _ (h i kind solver hi)
  · exact hin

theorem set_loaded {i j : Nat} {task : Option (Task ρ)} {kind : Kind} {solver : Solver ρ}
    (h : s.set i task j = some (.loaded kind solver)) :
    task = some (.loaded kind solver) ∨ s.tasks j = some (.loaded kind solver) := by
  unfold State.set at h
  split at h
  · exact .inl h
  · exact .inr h

theorem register_cases (F : Formula ρ) (s : State ρ) (id : Uuid) (name : String) (email webhookUrl : Option String)
    (apiKey : String) (now : Int) (fate : Fate) :
    step F s (.register id name email webhookUrl apiKey now fate) = s ∨
      ∃ t, s.store (newSolver F id name email (some apiKey) webhookUrl now) = some t ∧
        step F s (.register id name email webhookUrl apiKey now fate) = { s with solvers := t } := by
  simp only [step]
  rcases hs : s.store (newSolver F id name email (some apiKey) webhookUrl now) with _ | t
  · exact .inl (by cases fate <;> rfl)
  · cases fate with
    | refused => exact .inl rfl
    | served => exact .inr ⟨t, rfl, rfl⟩
    | lost => exact .inr ⟨t, rfl, rfl⟩

theorem inv_step (h : s.Inv) (e : Event) : (step F s e).Inv := by
  have hdrop : ∀ i, State.Inv { s with tasks := s.set i none } := fun i =>
    inv_of h (fun _ hs => hs) fun _ _ _ hj => (set_loaded hj).elim nofun .inl
  cases e with
  | select i kind id name fate =>
    simp only [step]
    split
    · exact h
    · split
      · next solver hfind =>
        refine inv_of h (fun _ hs => hs) fun j kind' solver' hj => ?_
        rcases set_loaded hj with hj | hj
        · obtain ⟨rfl, rfl⟩ := Task.loaded.inj (Option.some.inj hj)
          refine .inr ?_
          show (findById s solver.id).isSome
          rw [id_of_find hfind, hfind]
          rfl
        · exact .inl hj
      · exact inv_of h (fun _ hs => hs) fun _ _ _ hj => (set_loaded hj).elim nofun .inl
  | insert i now fate =>
    simp only [step]
    rcases htask : s.tasks i with _ | ⟨kind, id', name⟩ | ⟨kind, solver⟩
    · exact h
    · dsimp only
      rcases hcreate : s.create F id' name now with _ | ⟨solver, t⟩
      · cases fate <;> exact hdrop i
      · have hrows : ∀ tasks recorded id, (findById s id).isSome →
            (findById ⟨t, tasks, recorded⟩ id).isSome := fun tasks recorded id =>
          ((create_some hcreate).2.2.2 tasks recorded).2
        cases fate with
        | refused => exact hdrop i
        | lost => exact inv_of h (hrows _ _) fun _ _ _ hj => (set_loaded hj).elim nofun .inl
        | served =>
          refine inv_of h (hrows _ _) fun j kind' solver' hj => ?_
          rcases set_loaded hj with hj | hj
          · obtain ⟨rfl, rfl⟩ := Task.loaded.inj (Option.some.inj hj)
            obtain ⟨hid, -, -, hin⟩ := @create_some ρ F s id' id' name now solver t hcreate
            refine .inr ?_
            rw [hid]
            exact (hin _ _).1
          · exact .inl hj
    · exact h
  | update i fate =>
    simp only [step]
    split
    · split
      · exact hdrop i
      · refine inv_of h (fun id hs => ?_) fun _ _ _ hj => (set_loaded hj).elim nofun .inl
        exact (isSome_findById_update _ _ _ id).trans hs
    · exact h
  | register id' name email webhookUrl apiKey now fate =>
    rcases register_cases F s id' name email webhookUrl apiKey now fate with he | ⟨t, ht, he⟩
    · rw [he]
      exact h
    · rw [he]
      refine inv_of h (fun id hs => ?_) fun _ _ _ hj => .inl hj
      rw [findById_store ht]
      split
      · rfl
      · exact hs
  | updateProfile id name email webhookUrl fate =>
    simp only [step]
    split
    · exact h
    · split
      · exact h
      · exact inv_of h (fun id hs => (isSome_findById_update _ _ _ id).trans hs) fun _ _ _ hj => .inl hj
  | deactivate id fate =>
    simp only [step]
    split
    · exact h
    · exact inv_of h (fun id hs => (isSome_findById_update _ _ _ id).trans hs) fun _ _ _ hj => .inl hj

/-- One solver of the table is a cell that the calls read, change and write back. -/
theorem simulates (F : Formula ρ) (id : Uuid) :
    Simulates (step F) (Rmw.step Kind.count) State.Inv (fun _ _ => True) (cellOf id) (cellEvents F id) where
  keeps _ e h _ := inv_step h e
  view s e h _ := by
    cases e with
    | select i kind id' name fate => exact cellOf_select
    | insert i now fate => exact cellOf_insert
    | update i fate => exact cellOf_update h
    | register id' name email webhookUrl apiKey now fate =>
      rcases register_cases F s id' name email webhookUrl apiKey now fate with he | ⟨t, ht, he⟩
      · rw [he]
        rfl
      · rw [he]
        exact cellOf_eq (counters_store ht rfl _ _ id) rfl rfl
    | updateProfile id' name email webhookUrl fate =>
      simp only [step]
      split
      · rfl
      · split
        · rfl
        · refine cellOf_eq (counters_update _ ?_ _ _ id) rfl rfl
          exact fun _ => rfl
    | deactivate id' fate =>
      simp only [step]
      split
      · rfl
      · refine cellOf_eq (counters_update _ ?_ _ _ id) rfl rfl
        exact fun _ => rfl

theorem raises : Rmw.Raises Kind.count (fun c => c.totalFills + c.failedFills) fun _ => 1 where
  rank kind c := by
    cases kind <;> simp only [Kind.count] <;> omega
  pos _ := Nat.one_pos

/-- A step of the table is fresh for a solver just when what is seen of it is. -/
theorem fresh_iff (e : Event) :
    Each (Rmw.step Kind.count) Rmw.Fresh (cellOf id s) (cellEvents F id s e) ↔ Fresh id s e := by
  cases e with
  | select i kind id' name fate =>
    simp only [cellEvents]
    split <;> simp [Each, Rmw.Fresh, Fresh]
  | insert i now fate =>
    refine iff_of_true ?_ trivial
    simp only [cellEvents]
    rcases s.tasks i with _ | ⟨kind, id', name⟩ | ⟨kind, solver⟩
    · trivial
    · dsimp only
      split_ifs <;> simp [Each, Rmw.Fresh]
    · trivial
  | update i fate =>
    simp only [cellEvents, Fresh]
    rcases htask : s.tasks i with _ | ⟨kind, id', name⟩ | ⟨kind, solver⟩
    · simp [Each]
    · simp [Each]
    · dsimp only
      have hheld : solver.id = id → (cellOf id s).held i = some solver.counters := by
        intro he
        show (s.tasks i).bind (Task.held id) = _
        rw [htask, held_loaded, if_pos he]
      by_cases he : solver.id = id
      · rw [if_pos he]
        by_cases hfate : fate = .refused
        · simp [hfate, Each, Rmw.Fresh]
        · rw [if_neg hfate]
          simp only [Each, Rmw.Fresh, hheld he, and_true]
          constructor
          · intro hfresh _ kind' solver' hs _
            obtain ⟨rfl, rfl⟩ := Task.loaded.inj (Option.some.inj hs)
            exact hfresh _ rfl
          · intro hfresh a ha
            obtain rfl := Option.some.inj ha
            exact hfresh hfate kind solver rfl he
      · rw [if_neg he]
        refine iff_of_true trivial fun _ kind' solver' hs hid => ?_
        obtain ⟨rfl, rfl⟩ := Task.loaded.inj (Option.some.inj hs)
        exact absurd hid he
  | register id' name email webhookUrl apiKey now fate => simp [cellEvents, Each, Fresh]
  | updateProfile id' name email webhookUrl fate => simp [cellEvents, Each, Fresh]
  | deactivate id' fate => simp [cellEvents, Each, Fresh]

/-- Every row has the score of its own counters. -/
def Scored (F : Formula ρ) (t : Solvers ρ) : Prop :=
  ∀ r ∈ t.rows, r.reputationScore = calculateReputation F r.counters

theorem scored_update {t : Solvers ρ} {p : Solver ρ → Bool} {f : Solver ρ → Solver ρ} (hf) (h : Scored F t)
    (hscore : ∀ r ∈ t.rows, (f r).reputationScore = calculateReputation F (f r).counters) :
    Scored F (t.update p f hf) := by
  intro r hr
  obtain ⟨r', hr', rfl⟩ := Table.mem_update.1 hr
  split
  · exact hscore r' hr'
  · exact h r' hr'

theorem scored_write {solver : Solver ρ} (h : Scored F s.solvers)
    (hscore : solver.reputationScore = calculateReputation F solver.counters) : Scored F (s.write solver) := by
  unfold State.write
  exact scored_update _ h fun _ _ => hscore

theorem scored_profile (h : Scored F s.solvers) (id : Uuid) (name email webhookUrl : Option String) :
    Scored F (s.solvers.update (fun r => r.id = id) (fun r => r.profile name email webhookUrl)
      fun _ => ⟨rfl, rfl⟩) :=
  scored_update _ h fun r hr => h r hr

theorem scored_inactive (h : Scored F s.solvers) (id : Uuid) :
    Scored F (s.solvers.update (fun r => r.id = id && r.active) (fun r => { r with active := false })
      fun _ => ⟨rfl, rfl⟩) :=
  scored_update _ h fun r hr => h r hr

theorem scored_store {solver : Solver ρ} {t : Solvers ρ} (h : Scored F s.solvers) (hs : s.store solver = some t)
    (hscore : solver.reputationScore = calculateReputation F solver.counters) : Scored F t := by
  intro r hr
  rcases (Table.mem_insert (store_some hs)).1 hr with hr | rfl
  · exact h r hr
  · exact hscore

theorem scored_newSolver (id : Uuid) (name : String) (email apiKey webhookUrl : Option String) (now : Int) :
    (newSolver F id name email apiKey webhookUrl now).reputationScore =
      calculateReputation F (newSolver F id name email apiKey webhookUrl now).counters :=
  (if_pos rfl).symm

theorem scored_create {id : Uuid} {name : String} {now : Int} {solver : Solver ρ} {t : Solvers ρ}
    (h : Scored F s.solvers) (hs : s.create F id name now = some (solver, t)) : Scored F t := by
  unfold State.create at hs
  split at hs
  · obtain ⟨-, rfl⟩ := Prod.mk.inj (Option.some.inj hs)
    exact h
  · obtain ⟨t', ht', he⟩ := Option.map_eq_some_iff.1 hs
    obtain ⟨-, rfl⟩ := Prod.mk.inj he
    exact scored_store h ht' (scored_newSolver _ _ _ _ _ _)

theorem scored_step (h : Scored F s.solvers) (e : Event) : Scored F (step F s e).solvers := by
  cases e with
  | select i kind id' name fate =>
    simp only [step]
    split
    · exact h
    · split <;> exact h
  | insert i now fate =>
    simp only [step]
    rcases s.tasks i with _ | ⟨kind, id', name⟩ | ⟨kind, solver⟩
    · exact h
    · dsimp only
      rcases hcreate : s.create F id' name now with _ | ⟨solver, t⟩
      · cases fate <;> exact h
      · cases fate with
        | refused => exact h
        | lost => exact scored_create h hcreate
        | served => exact scored_create h hcreate
    · exact h
  | update i fate =>
    simp only [step]
    split
    · split
      · exact h
      · exact scored_write h rfl
    · exact h
  | register id' name email webhookUrl apiKey now fate =>
    rcases register_cases F s id' name email webhookUrl apiKey now fate with he | ⟨t, ht, he⟩
    · rw [he]
      exact h
    · rw [he]
      exact scored_store h ht (scored_newSolver _ _ _ _ _ _)
  | updateProfile id' name email webhookUrl fate =>
    simp only [step]
    split
    · exact h
    · split
      · exact h
      · exact scored_profile h id' name email webhookUrl
  | deactivate id' fate =>
    simp only [step]
    split
    · exact h
    · exact scored_inactive h id'

/-- **The counters of a solver are those of everything recorded, one after the other, if and only if
every update writes back what was read from the row as it is**, whatever the order of the statements;
and every score is that of the counters beside it. -/
theorem reputation_exact_iff (F : Formula ρ) (id : Uuid) (es : List Event) :
    ((run (step F) .new es).counters id =
        ((run (step F) .new es).recordedOf id).foldr Kind.count .zero ↔
      Each (step F) (Fresh id) .new es) ∧
    ∀ r ∈ (run (step F) .new es).solvers.rows, r.reputationScore = calculateReputation F r.counters := by
  have hinv : (State.new : State ρ).Inv := nofun
  have htrue : Each (step F) (fun _ _ => True) (State.new : State ρ) es := each_true _ es
  have hsim := simulates F id
  have hrun := hsim.run hinv htrue
  refine ⟨?_, run_keeps (I := fun s : State ρ => Scored F s.solvers) (fun _ e h _ => scored_step h e) nofun htrue⟩
  have hiff : (cellOf id (run (step F) .new es)).value = (cellOf id (run (step F) .new es)).serial Kind.count ↔
      Each (Rmw.step Kind.count) Rmw.Fresh (cellOf id (.new : State ρ)) (seen (step F) (cellEvents F id) .new es) := by
    rw [hrun]
    exact Rmw.value_eq_iff raises
  rw [hsim.each hinv htrue] at hiff
  exact hiff.trans (each_iff_of_keeps (I := fun _ => True) (fun _ _ _ _ _ => trivial)
    (fun _ e _ _ => fresh_iff e) trivial htrue)

end Cell

/-- Of two fills that are recorded at the same time, one is lost. -/
example : (run (step (⟨0, fun _ => 1⟩ : Formula Nat)) .new
    [.register 7 "s" none none "k" 0 .served, .select 0 (.fill 10) 7 "s" .served,
      .select 1 (.fill 20) 7 "s" .served, .update 0 .served, .update 1 .served]).counters 7 =
    ⟨0, 0, 20, 1, 0⟩ := by decide +kernel

end IntentX.Reputation
