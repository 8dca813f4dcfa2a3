import IntentX.Checker
import IntentX.Lib.Calendar
import IntentX.Lib.Machine
import IntentX.Lib.Partitioned
import IntentX.Lib.Text

/-!
# Partitions by month

Trades, ledger entries, market trades, fills and executions are partitioned by month
(`migrations/022_partitioning.sql`).  The worker of `src/workers/partition_manager.rs` creates the partitions
of the month and of the three after it, and the one of `src/workers/partition_archival.rs` drops those that
are older than the retention, with their rows (`migrations/025_partition_archival.sql`).

* A row is accepted if and only if the partition of its month was created and not archived since
  (`insert_accepted_iff`), so rows of the current month are as long as one of the last three months' runs of
  the manager succeeded (`provided_accepted`).
* Every row that was accepted is stored, or was dropped after the retention and is counted in the log
  (`rows_accounted`).
* Dropping entries takes their value off the ledger's balance, not off the account's
  (`archived_balance`).

Times are in seconds, of the time zone of the database.  A failed statement is rolled back.
-/

namespace IntentX.Partitions

open Lib Lib.Calendar Lib.Machine

/-! ## The tables -/

inductive PartitionedTable where
  | trades | ledgerEntries | marketTrades | fills | executions
  deriving DecidableEq, Repr

def PartitionedTable.text : PartitionedTable → String
  | .trades => "trades"
  | .ledgerEntries => "ledger_entries"
  | .marketTrades => "market_trades"
  | .fills => "fills"
  | .executions => "executions"

/-- The array of `create_monthly_partitions`. -/
def partitionedTables : List PartitionedTable := [.trades, .ledgerEntries, .marketTrades, .fills, .executions]

/-- `LPAD(s, 2, '0')` -/
def lpad2 (s : List Char) : List Char := List.replicate (2 - s.length) '0' ++ s.take 2

def partName (tbl : PartitionedTable) (m : Nat) : String :=
  tbl.text ++ "_y" ++ String.ofList (Nat.toDigits 10 (year m)) ++ "m" ++
    String.ofList (lpad2 (Nat.toDigits 10 (monthOfYear m)))

structure ArchiveLogEntry where
  tableName : String
  partitionName : String
  rowCount : Nat
  deriving DecidableEq, Repr

/-- The tables, whose rows have a time of creation. -/
structure Database {ρ : Type} (createdAt : ρ → Int) where
  now : Int
  tables : PartitionedTable → Partitioned Int ρ createdAt
  archiveLog : List ArchiveLogEntry

section Source

variable {ρ : Type} {createdAt : ρ → Int}

/-- `EXISTS (SELECT 1 FROM pg_class WHERE relname = name)`, of the partitions. -/
def Database.hasRelation (db : Database createdAt) (name : String) : Bool :=
  partitionedTables.any fun tbl => (db.tables tbl).parts.any fun p => p.name == name

def Database.set (db : Database createdAt) (tbl : PartitionedTable) (t : Partitioned Int ρ createdAt) :
    Database createdAt := { db with tables := Function.update db.tables tbl t }

/-- One turn of the loop in `create_monthly_partitions`. -/
def createPartition (tbl : PartitionedTable) (m : Nat) (db : Database createdAt) : Option (Database createdAt) :=
  if db.hasRelation (partName tbl m) then some db
  else ((db.tables tbl).attach (partName tbl m) (monthStart m) (monthStart (m + 1))).map (db.set tbl)

/-- The partitions of a table that a run looks at. -/
def monthsAhead (now : Int) (months : Nat) : List (PartitionedTable × Nat) :=
  partitionedTables.flatMap fun tbl => (List.range (months + 1)).map fun m => (tbl, monthOf now + m)

def createMonthlyPartitions (months : Nat) (db : Database createdAt) : Option (Database createdAt) :=
  (monthsAhead db.now months).foldlM (fun db (tbl, m) => createPartition tbl m db) db

/-- The partition begins before the cutoff, and archiving it does not fail. -/
def archived (now retentionMonths : Int) (fails : String → Bool) (p : Partition Int ρ) : Bool :=
  (monthOf p.lower : Int) < monthOf now - retentionMonths ∧ ¬ fails p.name

/-- One turn of the outer loop in `archive_old_partitions`. -/
def archiveTable (retentionMonths : Int) (fails : String → Bool) (db : Database createdAt)
    (tbl : PartitionedTable) : Database createdAt :=
  let dropped := (db.tables tbl).parts.filter (archived db.now retentionMonths fails)
  { db.set tbl ((db.tables tbl).drop (archived db.now retentionMonths fails)) with
    archiveLog := db.archiveLog ++ dropped.map fun p => ⟨tbl.text, p.name, p.rows.length⟩ }

/-- The order of the tables in the log is that of `archive_old_partitions`. -/
def archiveOldPartitions (retentionMonths : Int) (fails : String → Bool) (db : Database createdAt) :
    Database createdAt :=
  [.trades, .fills, .executions, .ledgerEntries, .marketTrades].foldl (archiveTable retentionMonths fails) db

def MONTHS_AHEAD : Nat := 3

inductive Event (ρ : Type) where
  | advance (t : Int)
  | createMonthlyPartitions (refused : Bool)
  /-- Archiving the partitions of some names fails. -/
  | archiveOldPartitions (refused : Bool) (fails : String → Bool)
  | insert (tbl : PartitionedTable) (row : ρ)

def step (retentionMonths : Int) (db : Database createdAt) : Event ρ → Database createdAt
  | .advance t => { db with now := max db.now t }
  | .createMonthlyPartitions refused =>
    if refused then db else (createMonthlyPartitions MONTHS_AHEAD db).getD db
  | .archiveOldPartitions refused fails =>
    if refused then db else archiveOldPartitions retentionMonths fails db
  | .insert tbl row =>
    match (db.tables tbl).insert row with
    | some t => db.set tbl t
    | none => db

variable (createdAt) in
/-- After the migration, which creates partitions as a run of the manager does. -/
def migrated (now : Int) : Database createdAt :=
  (createMonthlyPartitions MONTHS_AHEAD ⟨now, fun _ => .empty, []⟩).getD ⟨now, fun _ => .empty, []⟩

end Source

/-! ## Names -/

theorem lpad2_inj : ∀ a < 13, ∀ b < 13, lpad2 (Nat.toDigits 10 a) = lpad2 (Nat.toDigits 10 b) → a = b := by
  decide +kernel

theorem length_lpad2 (s : List Char) : (lpad2 s).length = 2 := by
  rw [lpad2, List.length_append, List.length_replicate, List.length_take]
  omega

theorem toDigits_inj {a b : Nat} (h : Nat.toDigits 10 a = Nat.toDigits 10 b) : a = b := by
  rw [← Nat.ofDigitChars_ten_toDigits (n := a), h, Nat.ofDigitChars_ten_toDigits]

theorem PartitionedTable.notMem_text (tbl : PartitionedTable) : 'y' ∉ (tbl.text ++ "_").toList := by
  cases tbl <;> decide

theorem PartitionedTable.text_inj {tbl tbl' : PartitionedTable}
    (h : (tbl.text ++ "_").toList = (tbl'.text ++ "_").toList) : tbl = tbl' := by
  revert h
  cases tbl <;> cases tbl' <;> decide

/-- The name tells the table and the month. -/
theorem partName_inj {tbl tbl' : PartitionedTable} {m m' : Nat} (h : partName tbl m = partName tbl' m') :
    tbl = tbl' ∧ m = m' := by
  have hlist : ∀ tbl m, (partName tbl m).toList = ((tbl.text ++ "_").toList ++
      'y' :: Nat.toDigits 10 (year m)) ++ ['m'] ++ lpad2 (Nat.toDigits 10 (monthOfYear m)) := by
    intro tbl m
    simp [partName]
  have heq := congrArg String.toList h
  rw [hlist, hlist] at heq
  obtain ⟨hfront, hmonth⟩ := List.append_inj' heq (by rw [length_lpad2, length_lpad2])
  have hmonth' : monthOfYear m = monthOfYear m' := lpad2_inj _ (by unfold monthOfYear; omega) _
    (by unfold monthOfYear; omega) hmonth
  rcases Text.cut_of_notMem tbl'.notMem_text (List.append_inj' hfront rfl).1 with
    ⟨htext, hdigits⟩ | ⟨rest, hbehind, -⟩
  · have hyear := toDigits_inj hdigits
    refine ⟨PartitionedTable.text_inj htext, ?_⟩
    unfold year at hyear
    unfold monthOfYear at hmonth'
    omega
  · exact absurd (hbehind ▸ List.mem_append_right _ List.mem_cons_self) tbl.notMem_text

/-! ## What a run of the manager creates -/

section Facts

variable {ρ : Type} {createdAt : ρ → Int} {db db' : Database createdAt} {tbl tbl' : PartitionedTable} {m m' : Nat}

@[simp] theorem set_tables_self {t : Partitioned Int ρ createdAt} : (db.set tbl t).tables tbl = t :=
  Function.update_self ..

theorem set_tables_ne {t : Partitioned Int ρ createdAt} (h : tbl' ≠ tbl) :
    (db.set tbl t).tables tbl' = db.tables tbl' := Function.update_of_ne h ..

/-- The partition of a month. -/
structure Monthly (tbl : PartitionedTable) (m : Nat) (p : Partition Int ρ) : Prop where
  name : p.name = partName tbl m
  lower : p.lower = monthStart m
  upper : p.upper = monthStart (m + 1)

def Database.Has (db : Database createdAt) (tbl : PartitionedTable) (m : Nat) : Prop :=
  ∃ p ∈ (db.tables tbl).parts, Monthly tbl m p

/-- All partitions are those of a month. -/
structure Inv (db : Database createdAt) : Prop where
  now : 0 ≤ db.now
  monthly : ∀ tbl, ∀ p ∈ (db.tables tbl).parts, ∃ m, Monthly tbl m p

theorem Monthly.takes_iff {p : Partition Int ρ} (h : Monthly tbl m p) (t : Int) : p.Takes t ↔ InMonth m t := by
  unfold Partition.Takes InMonth
  rw [h.lower, h.upper]

theorem monthStart_nonneg (m : Nat) : 0 ≤ monthStart m := by
  unfold monthStart
  omega

theorem monthOf_monthStart (m : Nat) : monthOf (monthStart m) = m :=
  (inMonth_iff (monthStart_nonneg m)).1 ⟨Int.le_refl _, monthStart_lt_succ m⟩

theorem Monthly.overlaps_iff {p q : Partition Int ρ} (hp : Monthly tbl m p) (hq : Monthly tbl' m' q) :
    p.Overlaps q ↔ m = m' := by
  unfold Partition.Overlaps
  rw [hp.lower, hp.upper, hq.lower, hq.upper, monthStart_strictMono.lt_iff_lt, monthStart_strictMono.lt_iff_lt]
  omega

/-- A table takes the rows of the months that it has partitions of. -/
theorem covers_iff (h : Inv db) {t : Int} (hm : InMonth m t) : (db.tables tbl).Covers t ↔ db.Has tbl m := by
  constructor
  · rintro ⟨p, hp, hk⟩
    obtain ⟨m', hm'⟩ := h.monthly tbl p hp
    obtain rfl := inMonth_unique hm ((hm'.takes_iff t).1 hk)
    exact ⟨p, hp, hm'⟩
  · rintro ⟨p, hp, hm'⟩
    exact ⟨p, hp, (hm'.takes_iff t).2 hm⟩

theorem mem_partitionedTables (tbl : PartitionedTable) : tbl ∈ partitionedTables := by
  cases tbl <;> decide

theorem hasRelation_iff (h : Inv db) : db.hasRelation (partName tbl m) = true ↔ db.Has tbl m := by
  unfold Database.hasRelation
  simp only [List.any_eq_true, beq_iff_eq]
  constructor
  · rintro ⟨tbl', -, p, hp, hname⟩
    obtain ⟨m', hm'⟩ := h.monthly tbl' p hp
    obtain ⟨rfl, rfl⟩ := partName_inj (hm'.name.symm.trans hname)
    exact ⟨p, hp, hm'⟩
  · rintro ⟨p, hp, hm'⟩
    exact ⟨tbl, mem_partitionedTables tbl, p, hp, hm'.name⟩

/-- `db'` has the rows, the log and the time of `db`. -/
structure Same (db db' : Database createdAt) : Prop where
  now : db'.now = db.now
  log : db'.archiveLog = db.archiveLog
  rows : ∀ tbl, (db'.tables tbl).rows = (db.tables tbl).rows

theorem Same.refl (db : Database createdAt) : Same db db := ⟨rfl, rfl, fun _ => rfl⟩

theorem Same.trans {db₁ : Database createdAt} (h : Same db db₁) (h' : Same db₁ db') : Same db db' :=
  ⟨h'.now.trans h.now, h'.log.trans h.log, fun tbl => (h'.rows tbl).trans (h.rows tbl)⟩

/-- A partition is created without an error, unless it is there. -/
theorem createPartition_some (h : Inv db) (tbl : PartitionedTable) (m : Nat) :
    ∃ db', createPartition tbl m db = some db' ∧ Inv db' ∧ Same db db' ∧
      ∀ tbl' m', db'.Has tbl' m' ↔ db.Has tbl' m' ∨ (tbl', m') = (tbl, m) := by
  unfold createPartition
  by_cases hhas : db.Has tbl m
  · rw [if_pos ((hasRelation_iff h).2 hhas)]
    refine ⟨db, rfl, h, .refl db, fun tbl' m' => ⟨.inl, ?_⟩⟩
    rintro (hhas' | heq)
    · exact hhas'
    · obtain ⟨rfl, rfl⟩ := Prod.mk.inj heq
      exact hhas
  · rw [if_neg (mt (hasRelation_iff h).1 hhas)]
    have hnew : Monthly tbl m (⟨partName tbl m, monthStart m, monthStart (m + 1), []⟩ : Partition Int ρ) :=
      ⟨rfl, rfl, rfl⟩
    have hfree : ∀ p ∈ (db.tables tbl).parts,
        ¬ p.Overlaps ⟨partName tbl m, monthStart m, monthStart (m + 1), []⟩ := by
      intro p hp hover
      obtain ⟨m', hm'⟩ := h.monthly tbl p hp
      obtain rfl := (hm'.overlaps_iff hnew).1 hover
      exact hhas ⟨p, hp, hm'⟩
    obtain ⟨t, ht⟩ := Option.isSome_iff_exists.1 (Partitioned.attach_isSome_iff.2 hfree)
    have hparts := Partitioned.parts_attach ht
    rw [ht]
    refine ⟨db.set tbl t, rfl, ⟨h.now, fun tbl' p hp => ?_⟩, ⟨rfl, rfl, fun tbl' => ?_⟩, fun tbl' m' => ?_⟩
    · by_cases htbl : tbl' = tbl
      · subst htbl
        rw [set_tables_self, hparts] at hp
        rcases List.mem_append.1 hp with hp | hp
        · exact h.monthly _ p hp
        · exact ⟨m, List.mem_singleton.1 hp ▸ hnew⟩
      · rw [set_tables_ne htbl] at hp
        exact h.monthly _ p hp
    · by_cases htbl : tbl' = tbl
      · subst htbl
        rw [set_tables_self, Partitioned.rows_attach ht]
      · rw [set_tables_ne htbl]
    · unfold Database.Has
      by_cases htbl : tbl' = tbl
      · subst htbl
        rw [set_tables_self, hparts]
        constructor
        · rintro ⟨p, hp, hm'⟩
          rcases List.mem_append.1 hp with hp | hp
          · exact .inl ⟨p, hp, hm'⟩
          · obtain rfl := List.mem_singleton.1 hp
            have hm : m' = m := monthStart_strictMono.injective (hm'.lower.symm.trans hnew.lower)
            exact .inr (hm ▸ rfl)
        · rintro (⟨p, hp, hm'⟩ | heq)
          · exact ⟨p, List.mem_append_left _ hp, hm'⟩
          · obtain rfl := (Prod.mk.inj heq).2
            exact ⟨_, List.mem_append_right _ (List.mem_singleton_self _), hnew⟩
      · rw [set_tables_ne htbl]
        exact ⟨.inl, fun h' => h'.resolve_right fun heq => htbl (Prod.mk.inj heq).1⟩

/-- The partitions of a list are created, one after the other. -/
theorem foldlM_createPartition (l : List (PartitionedTable × Nat)) (h : Inv db) :
    ∃ db', l.foldlM (fun db (tbl, m) => createPartition tbl m db) db = some db' ∧ Inv db' ∧ Same db db' ∧
      ∀ tbl m, db'.Has tbl m ↔ db.Has tbl m ∨ (tbl, m) ∈ l := by
  induction l generalizing db with
  | nil => exact ⟨db, rfl, h, .refl db, fun tbl m => by simp⟩
  | cons x l ih =>
    obtain ⟨db₁, hcreate, h₁, hsame₁, hhas₁⟩ := createPartition_some h x.1 x.2
    obtain ⟨db', hfold, h', hsame', hhas'⟩ := ih h₁
    refine ⟨db', ?_, h', hsame₁.trans hsame', fun tbl m => ?_⟩
    · rw [List.foldlM_cons]
      show (createPartition x.1 x.2 db >>= _) = _
      rw [hcreate]
      exact hfold
    · rw [hhas', hhas₁, List.mem_cons, or_assoc]

theorem mem_monthsAhead {now : Int} {months : Nat} :
    (tbl, m) ∈ monthsAhead now months ↔ monthOf now ≤ m ∧ m ≤ monthOf now + months := by
  unfold monthsAhead
  simp only [List.mem_flatMap, List.mem_map, List.mem_range, Prod.mk.injEq]
  constructor
  · rintro ⟨tbl', -, k, hk, rfl, rfl⟩
    omega
  · rintro ⟨hle, hle'⟩
    exact ⟨tbl, mem_partitionedTables tbl, m - monthOf now, by omega, rfl, by omega⟩

/-- A run of the manager creates the partitions of the month and of those after it. -/
theorem createMonthlyPartitions_some (h : Inv db) (months : Nat) :
    ∃ db', createMonthlyPartitions months db = some db' ∧ Inv db' ∧ Same db db' ∧
      ∀ tbl m, db'.Has tbl m ↔ db.Has tbl m ∨ (monthOf db.now ≤ m ∧ m ≤ monthOf db.now + months) := by
  obtain ⟨db', hfold, h', hsame, hhas⟩ := foldlM_createPartition (monthsAhead db.now months) h
  exact ⟨db', hfold, h', hsame, fun tbl m => (hhas tbl m).trans (or_congr_right mem_monthsAhead)⟩

/-! ## What archiving drops -/

theorem archived_iff {now retentionMonths : Int} {fails : String → Bool} {p : Partition Int ρ}
    (h : Monthly tbl m p) : archived now retentionMonths fails p = true ↔
      (m : Int) < monthOf now - retentionMonths ∧ fails (partName tbl m) = false := by
  unfold archived
  rw [decide_eq_true_iff, h.lower, h.name, monthOf_monthStart, Bool.not_eq_true]

theorem foldl_archiveTable (retentionMonths : Int) (fails : String → Bool) {l : List PartitionedTable}
    (hl : l.Nodup) (db : Database createdAt) :
    let db' := l.foldl (archiveTable retentionMonths fails) db
    let f : Partition Int ρ → Bool := archived db.now retentionMonths fails
    db'.now = db.now ∧
      (∀ tbl ∈ l, db'.tables tbl = (db.tables tbl).drop f) ∧ (∀ tbl ∉ l, db'.tables tbl = db.tables tbl) ∧
      db'.archiveLog = db.archiveLog ++ l.flatMap fun tbl =>
        ((db.tables tbl).parts.filter f).map fun p => ⟨tbl.text, p.name, p.rows.length⟩ := by
  induction l generalizing db with
  | nil => exact ⟨rfl, fun _ h => absurd h List.not_mem_nil, fun _ _ => rfl, (List.append_nil _).symm⟩
  | cons x l ih =>
    obtain ⟨hx, hl⟩ := List.nodup_cons.1 hl
    obtain ⟨hnow, hin, hout, hlog⟩ := ih hl (archiveTable retentionMonths fails db x)
    have hself : (archiveTable retentionMonths fails db x).tables x =
        (db.tables x).drop (archived db.now retentionMonths fails) := set_tables_self
    have hother : ∀ tbl ≠ x, (archiveTable retentionMonths fails db x).tables tbl = db.tables tbl :=
      fun tbl hne => set_tables_ne hne
    refine ⟨hnow, fun tbl htbl => ?_, fun tbl htbl => ?_, ?_⟩
    · rcases List.mem_cons.1 htbl with rfl | htbl
      · exact (hout tbl hx).trans hself
      · rw [List.foldl_cons, hin tbl htbl, hother tbl fun heq => hx (heq ▸ htbl)]
        rfl
    · obtain ⟨hne, htbl⟩ := not_or.1 (mt List.mem_cons.2 htbl)
      exact (hout tbl htbl).trans (hother tbl hne)
    · rw [List.foldl_cons, hlog, List.flatMap_cons, ← List.append_assoc]
      refine congrArg₂ (· ++ ·) rfl (List.flatMap_congr fun tbl htbl => ?_)
      rw [hother tbl fun heq => hx (heq ▸ htbl)]
      rfl

variable {retentionMonths : Int} {fails : String → Bool} {e : Event ρ}

theorem archiveOldPartitions_now : (archiveOldPartitions retentionMonths fails db).now = db.now :=
  (foldl_archiveTable retentionMonths fails (by decide) db).1

theorem archiveOldPartitions_tables : (archiveOldPartitions retentionMonths fails db).tables tbl =
    (db.tables tbl).drop (archived db.now retentionMonths fails) :=
  (foldl_archiveTable retentionMonths fails (by decide) db).2.1 tbl (by cases tbl <;> decide)

/-- The rows that a step takes from a table. -/
def dropped (retentionMonths : Int) (tbl : PartitionedTable) (db : Database createdAt) : Event ρ → List ρ
  | .archiveOldPartitions refused fails =>
    if refused then []
    else ((db.tables tbl).parts.filter (archived db.now retentionMonths fails)).flatMap (·.rows)
  | _ => []

/-- The rows that a step puts into a table. -/
def inserted (tbl : PartitionedTable) (db : Database createdAt) : Event ρ → List ρ
  | .insert tbl' row => if tbl' = tbl ∧ (db.tables tbl).Covers (createdAt row) then [row] else []
  | _ => []

/-- The rows that the log counts for a table. -/
def Database.logged (db : Database createdAt) (tbl : PartitionedTable) : Nat :=
  ((db.archiveLog.filter fun entry => entry.tableName == tbl.text).map ArchiveLogEntry.rowCount).sum

theorem PartitionedTable.text_ne (h : tbl ≠ tbl') : tbl.text ≠ tbl'.text := by
  revert h
  cases tbl <;> cases tbl' <;> decide

/-- The count of a table's rows is in the entries of that table alone. -/
theorem logged_flatMap {f : PartitionedTable → List (Partition Int ρ)} {l : List PartitionedTable}
    (hl : l.Nodup) : (((l.flatMap fun tbl => (f tbl).map fun p => (⟨tbl.text, p.name, p.rows.length⟩ :
      ArchiveLogEntry)).filter fun entry => entry.tableName == tbl.text).map ArchiveLogEntry.rowCount).sum =
        if tbl ∈ l then ((f tbl).flatMap (·.rows)).length else 0 := by
  induction l with
  | nil => rfl
  | cons x l ih =>
    obtain ⟨hx, hl⟩ := List.nodup_cons.1 hl
    rw [List.flatMap_cons, List.filter_append, List.map_append, List.sum_append, ih hl]
    by_cases htbl : x = tbl
    · subst htbl
      rw [if_neg hx, if_pos List.mem_cons_self, List.filter_eq_self.2, List.map_map, List.length_flatMap]
      · rfl
      · intro entry hentry
        obtain ⟨p, -, rfl⟩ := List.mem_map.1 hentry
        exact beq_self_eq_true _
    · rw [List.filter_eq_nil_iff.2]
      · simp [Ne.symm htbl]
      · intro entry hentry
        obtain ⟨p, -, rfl⟩ := List.mem_map.1 hentry
        simpa using PartitionedTable.text_ne htbl

theorem archiveOldPartitions_logged : (archiveOldPartitions retentionMonths fails db).logged tbl =
    db.logged tbl + (dropped retentionMonths tbl db (.archiveOldPartitions false fails)).length := by
  unfold Database.logged archiveOldPartitions
  rw [(foldl_archiveTable retentionMonths fails (by decide) db).2.2.2, List.filter_append, List.map_append,
    List.sum_append, logged_flatMap (by decide), if_pos (by cases tbl <;> decide)]
  rfl

/-! ## What a step does -/

/-- The months that a run of the manager provides for. -/
def Ahead (now : Int) (m : Nat) : Prop := monthOf now ≤ m ∧ m ≤ monthOf now + MONTHS_AHEAD

instance (now : Int) (m : Nat) : Decidable (Ahead now m) := inferInstanceAs (Decidable (_ ∧ _))

/-- The manager creates the partitions of the month. -/
def Creates (m : Nat) (db : Database createdAt) : Event ρ → Prop
  | .createMonthlyPartitions refused => refused = false ∧ Ahead db.now m
  | _ => False

instance (m : Nat) (db : Database createdAt) : (e : Event ρ) → Decidable (Creates m db e)
  | .createMonthlyPartitions _ => inferInstanceAs (Decidable (_ ∧ _))
  | .advance _ | .archiveOldPartitions _ _ | .insert _ _ => .isFalse id

/-- The partition of the month is dropped. -/
def Archives (retentionMonths : Int) (tbl : PartitionedTable) (m : Nat) (db : Database createdAt) :
    Event ρ → Prop
  | .archiveOldPartitions refused fails =>
    refused = false ∧ (m : Int) < monthOf db.now - retentionMonths ∧ fails (partName tbl m) = false
  | _ => False

instance (retentionMonths : Int) (tbl : PartitionedTable) (m : Nat) (db : Database createdAt) :
    (e : Event ρ) → Decidable (Archives retentionMonths tbl m db e)
  | .archiveOldPartitions _ _ => inferInstanceAs (Decidable (_ ∧ _ ∧ _))
  | .advance _ | .createMonthlyPartitions _ | .insert _ _ => .isFalse id

theorem archiveOldPartitions_inv (h : Inv db) : Inv (archiveOldPartitions retentionMonths fails db) where
  now := by
    rw [archiveOldPartitions_now]
    exact h.now
  monthly tbl p hp := by
    rw [archiveOldPartitions_tables] at hp
    exact h.monthly tbl p (List.mem_of_mem_filter hp)

/-- A row that is inserted changes no bounds. -/
theorem mem_parts_set {t : Partitioned Int ρ createdAt} {row : ρ} (ht : (db.tables tbl).insert row = some t)
    {p : Partition Int ρ} (hp : p ∈ ((db.set tbl t).tables tbl').parts) :
    ∃ q ∈ (db.tables tbl').parts, p.name = q.name ∧ p.lower = q.lower ∧ p.upper = q.upper := by
  by_cases htbl : tbl' = tbl
  · subst htbl
    rw [set_tables_self, Partitioned.parts_insert ht] at hp
    obtain ⟨q, hq, rfl⟩ := List.mem_map.1 hp
    exact ⟨q, hq, Partitioned.add_bounds createdAt row q⟩
  · rw [set_tables_ne htbl] at hp
    exact ⟨p, hp, rfl, rfl, rfl⟩

theorem insert_inv (h : Inv db) {t : Partitioned Int ρ createdAt} {row : ρ}
    (ht : (db.tables tbl).insert row = some t) : Inv (db.set tbl t) where
  now := h.now
  monthly tbl' p hp := by
    obtain ⟨q, hq, hname, hlower, hupper⟩ := mem_parts_set ht hp
    obtain ⟨m, hm⟩ := h.monthly tbl' q hq
    exact ⟨m, hname.trans hm.name, hlower.trans hm.lower, hupper.trans hm.upper⟩

/-- A row is stored or refused. -/
theorem step_insert (tbl : PartitionedTable) (row : ρ) :
    (∃ t, (db.tables tbl).insert row = some t ∧ step retentionMonths db (.insert tbl row) = db.set tbl t) ∨
      (¬ (db.tables tbl).Covers (createdAt row) ∧ step retentionMonths db (.insert tbl row) = db) := by
  simp only [step]
  split
  · next t ht => exact .inl ⟨t, ht, rfl⟩
  · next hnone =>
    refine .inr ⟨fun hcovers => ?_, rfl⟩
    rw [← Partitioned.insert_isSome_iff, hnone] at hcovers
    cases hcovers

variable (retentionMonths) in
/-- A run of the manager that is not refused. -/
theorem step_create (h : Inv db) : Inv (step retentionMonths db (.createMonthlyPartitions false)) ∧
    Same db (step retentionMonths db (.createMonthlyPartitions false)) ∧
    ∀ tbl m, (step retentionMonths db (.createMonthlyPartitions false)).Has tbl m ↔
      db.Has tbl m ∨ Ahead db.now m := by
  obtain ⟨db', hcreate, h', hsame, hhas⟩ := createMonthlyPartitions_some h MONTHS_AHEAD
  have hstep : step retentionMonths db (.createMonthlyPartitions false) = db' := by simp [step, hcreate]
  rw [hstep]
  exact ⟨h', hsame, hhas⟩

theorem step_inv (h : Inv db) (e : Event ρ) : Inv (step retentionMonths db e) := by
  cases e with
  | advance t => exact ⟨h.now.trans (le_max_left _ _), h.monthly⟩
  | createMonthlyPartitions refused =>
    cases refused with
    | true => exact h
    | false => exact (step_create _ h).1
  | archiveOldPartitions refused fails =>
    cases refused with
    | true => exact h
    | false =>
      show Inv (archiveOldPartitions retentionMonths fails db)
      exact archiveOldPartitions_inv h
  | insert tbl row =>
    rcases step_insert tbl row with ⟨t, ht, hstep⟩ | ⟨-, hstep⟩
    · rw [hstep]
      exact insert_inv h ht
    · rw [hstep]
      exact h

theorem archiveOldPartitions_has : (archiveOldPartitions retentionMonths fails db).Has tbl m ↔
    db.Has tbl m ∧ ¬ ((m : Int) < monthOf db.now - retentionMonths ∧ fails (partName tbl m) = false) := by
  unfold Database.Has
  rw [archiveOldPartitions_tables]
  simp only [Partitioned.drop, List.mem_filter, Bool.not_eq_true']
  constructor
  · rintro ⟨p, ⟨hp, hkept⟩, hm⟩
    refine ⟨⟨p, hp, hm⟩, fun hold => ?_⟩
    rw [(archived_iff hm).2 hold] at hkept
    cases hkept
  · rintro ⟨⟨p, hp, hm⟩, hyoung⟩
    exact ⟨p, ⟨hp, Bool.eq_false_iff.2 fun hdrop => hyoung ((archived_iff hm).1 hdrop)⟩, hm⟩

theorem insert_has {t : Partitioned Int ρ createdAt} {row : ρ} (ht : (db.tables tbl).insert row = some t) :
    (db.set tbl t).Has tbl' m ↔ db.Has tbl' m := by
  unfold Database.Has
  by_cases htbl : tbl' = tbl
  · subst htbl
    rw [set_tables_self, Partitioned.parts_insert ht]
    simp only [List.mem_map, exists_exists_and_eq_and]
    refine exists_congr fun p => and_congr_right fun _ => ?_
    obtain ⟨hname, hlower, hupper⟩ := Partitioned.add_bounds createdAt row p
    constructor
    · intro hm
      exact ⟨hname.symm.trans hm.name, hlower.symm.trans hm.lower, hupper.symm.trans hm.upper⟩
    · intro hm
      exact ⟨hname.trans hm.name, hlower.trans hm.lower, hupper.trans hm.upper⟩
  · rw [set_tables_ne htbl]

/-- A partition is there if the step creates it, or if it was there and the step does not drop it. -/
theorem step_has (h : Inv db) (e : Event ρ) : (step retentionMonths db e).Has tbl m ↔
    Creates m db e ∨ (db.Has tbl m ∧ ¬ Archives retentionMonths tbl m db e) := by
  cases e with
  | advance t => simp [step, Creates, Archives, Database.Has]
  | createMonthlyPartitions refused =>
    cases refused with
    | true => simp [step, Creates, Archives]
    | false =>
      rw [(step_create _ h).2.2]
      simp [Creates, Archives, or_comm]
  | archiveOldPartitions refused fails =>
    cases refused with
    | true => simp [step, Creates, Archives]
    | false =>
      show (archiveOldPartitions retentionMonths fails db).Has tbl m ↔ _
      rw [archiveOldPartitions_has]
      simp only [Creates, Archives, true_and, false_or]
  | insert tbl' row =>
    have hnone : (Creates m db (.insert tbl' row) ∨
        (db.Has tbl m ∧ ¬ Archives retentionMonths tbl m db (.insert tbl' row))) ↔ db.Has tbl m := by
      simp [Creates, Archives]
    rw [hnone]
    rcases step_insert tbl' row with ⟨t, ht, hstep⟩ | ⟨-, hstep⟩
    · rw [hstep, insert_has ht]
    · rw [hstep]

theorem le_step_now (h : Inv db) (e : Event ρ) : db.now ≤ (step retentionMonths db e).now := by
  cases e with
  | advance t => exact le_max_left _ _
  | createMonthlyPartitions refused =>
    cases refused with
    | true => exact le_refl _
    | false => rw [(step_create _ h).2.1.now]
  | archiveOldPartitions refused fails =>
    cases refused with
    | true => exact le_refl _
    | false =>
      show db.now ≤ (archiveOldPartitions retentionMonths fails db).now
      rw [archiveOldPartitions_now]
  | insert tbl row =>
    rcases step_insert tbl row with ⟨t, -, hstep⟩ | ⟨-, hstep⟩
    · rw [hstep]
      exact le_refl _
    · rw [hstep]

variable (retentionMonths) in
theorem step_rows (h : Inv db) (tbl : PartitionedTable) (e : Event ρ) :
    (((step retentionMonths db e).tables tbl).rows ++ dropped retentionMonths tbl db e).Perm
      ((db.tables tbl).rows ++ inserted tbl db e) := by
  cases e with
  | advance t => exact .refl _
  | createMonthlyPartitions refused =>
    cases refused with
    | true => exact .refl _
    | false =>
      rw [(step_create _ h).2.1.rows]
      exact .refl _
  | archiveOldPartitions refused fails =>
    cases refused with
    | true => exact .refl _
    | false =>
      show (((archiveOldPartitions retentionMonths fails db).tables tbl).rows ++ _).Perm _
      rw [archiveOldPartitions_tables]
      exact (Partitioned.rows_drop _ _).symm.trans (List.append_nil _ ▸ .refl _)
  | insert tbl' row =>
    show (((step retentionMonths db (.insert tbl' row)).tables tbl).rows ++ []).Perm (_ ++ if _ then _ else _)
    rw [List.append_nil]
    rcases step_insert tbl' row with ⟨t, ht, hstep⟩ | ⟨hnot, hstep⟩
    · rw [hstep]
      by_cases htbl : tbl = tbl'
      · subst htbl
        have hcovers := Partitioned.insert_isSome_iff.1 (Option.isSome_iff_exists.2 ⟨t, ht⟩)
        rw [set_tables_self, if_pos ⟨rfl, hcovers⟩]
        exact (Partitioned.rows_insert ht).trans (List.perm_append_singleton ..).symm
      · rw [set_tables_ne htbl, if_neg fun heq => htbl heq.1.symm, List.append_nil]
    · rw [hstep, if_neg, List.append_nil]
      rintro ⟨rfl, hcovers⟩
      exact hnot hcovers

variable (retentionMonths) in
theorem step_logged (h : Inv db) (tbl : PartitionedTable) (e : Event ρ) :
    (step retentionMonths db e).logged tbl = db.logged tbl + (dropped retentionMonths tbl db e).length := by
  cases e with
  | advance t => rfl
  | createMonthlyPartitions refused =>
    cases refused with
    | true => rfl
    | false =>
      rw [Database.logged, (step_create _ h).2.1.log]
      rfl
  | archiveOldPartitions refused fails =>
    cases refused with
    | true => rfl
    | false =>
      show (archiveOldPartitions retentionMonths fails db).logged tbl = _
      exact archiveOldPartitions_logged
  | insert tbl' row =>
    rcases step_insert tbl' row with ⟨t, -, hstep⟩ | ⟨-, hstep⟩
    · rw [hstep]
      rfl
    · rw [hstep]
      rfl

/-! ## Runs from the migration -/

variable (createdAt) in
theorem empty_inv {now : Int} (hnow : 0 ≤ now) :
    Inv (⟨now, fun _ => .empty, []⟩ : Database createdAt) := ⟨hnow, fun _ _ hp => nomatch hp⟩

variable (createdAt) in
theorem migrated_spec {now : Int} (hnow : 0 ≤ now) : Inv (migrated createdAt now) ∧
    Same ⟨now, fun _ => .empty, []⟩ (migrated createdAt now) ∧
    ∀ tbl m, (migrated createdAt now).Has tbl m ↔ Ahead now m := by
  obtain ⟨db', hcreate, h', hsame, hhas⟩ :=
    createMonthlyPartitions_some (empty_inv createdAt hnow) MONTHS_AHEAD
  have heq : migrated createdAt now = db' := by rw [migrated, hcreate, Option.getD_some]
  rw [heq]
  refine ⟨h', hsame, fun tbl m => (hhas tbl m).trans (or_iff_right ?_)⟩
  rintro ⟨p, hp, -⟩
  exact nomatch hp

variable (retentionMonths) in
theorem run_inv (h : Inv db) (es : List (Event ρ)) : Inv (run (step retentionMonths) db es) :=
  run_keeps (fun _ e h _ => step_inv h e) h (each_true _ _)

theorem le_run_now (h : Inv db) (es : List (Event ρ)) : db.now ≤ (run (step retentionMonths) db es).now :=
  (run_keeps (I := fun db' => Inv db' ∧ db.now ≤ db'.now)
    (fun _ e h _ => ⟨step_inv h.1 e, h.2.trans (le_step_now h.1 e)⟩) ⟨h, le_refl _⟩ (each_true _ es)).2

/-- **A row is accepted** if and only if the partition of its month was created, by the migration or by a
run of the manager, and not dropped since. -/
theorem insert_accepted_iff (retentionMonths : Int) {now : Int} (hnow : 0 ≤ now) (es : List (Event ρ))
    (tbl : PartitionedTable) (row : ρ) {m : Nat} (hm : InMonth m (createdAt row)) :
    (((run (step retentionMonths) (migrated createdAt now) es).tables tbl).insert row).isSome ↔
      Since (step retentionMonths) (fun _ => Ahead now m) (Creates m) (Archives retentionMonths tbl m)
        (migrated createdAt now) es := by
  obtain ⟨hinv, -, hhas⟩ := migrated_spec createdAt hnow
  rw [Partitioned.insert_isSome_iff, covers_iff (run_inv _ hinv es) hm,
    holds_iff_since (H := fun db : Database createdAt => db.Has tbl m) (fun _ e h _ => step_inv h e)
      (fun _ e h _ => step_has h e) hinv (each_true _ es)]
  exact or_congr_left (and_congr_left fun _ => hhas tbl m)

/-- From February to June 2024, when the manager and the archiver run. -/
def untilJune : List (Event Int) :=
  [.insert .fills 1709164800, .advance 1718000000, .createMonthlyPartitions false,
    .archiveOldPartitions false fun _ => false]

theorem june_accepted : (((run (step 2) (migrated id 1709164800) untilJune).tables .fills).insert
    1718000000).isSome := by
  refine (insert_accepted_iff 2 (by decide) untilJune .fills 1718000000 (m := 653) (by decide +kernel)).2 ?_
  refine .inr ⟨untilJune.take 2, .createMonthlyPartitions false, untilJune.drop 3, rfl, ⟨rfl, ?_⟩, ?_, trivial⟩
  · decide +kernel
  · decide +kernel

/-- A partition stays as long as its month is within the retention. -/
theorem run_has (h : Inv db) {es : List (Event ρ)} (hhas : db.Has tbl m)
    (hyoung : (monthOf (run (step retentionMonths) db es).now : Int) - retentionMonths ≤ m) :
    (run (step retentionMonths) db es).Has tbl m := by
  induction es generalizing db with
  | nil => exact hhas
  | cons e es ih =>
    refine ih (step_inv h e) ((step_has h e).2 (.inr ⟨hhas, fun harchives => ?_⟩)) hyoung
    have hmono : monthOf db.now ≤ monthOf (run (step retentionMonths) db (e :: es)).now :=
      monthOf_mono h.now (le_run_now h (e :: es))
    unfold Archives at harchives
    split at harchives
    · have hold := harchives.2.1
      omega
    · exact harchives

/-- **Rows are accepted ahead of time**: those of the month of a run of the manager, and of the three
months after it, as long as the month is within the retention. -/
theorem provided_accepted (retentionMonths : Int) {now : Int} (hnow : 0 ≤ now) (es es' : List (Event ρ))
    (tbl : PartitionedTable) (row : ρ) {m : Nat} (hm : InMonth m (createdAt row))
    (hahead : Ahead (run (step retentionMonths) (migrated createdAt now) es).now m)
    (hyoung : (monthOf (run (step retentionMonths) (migrated createdAt now)
      (es ++ .createMonthlyPartitions false :: es')).now : Int) - retentionMonths ≤ m) :
    (((run (step retentionMonths) (migrated createdAt now)
      (es ++ .createMonthlyPartitions false :: es')).tables tbl).insert row).isSome := by
  have hinv := (migrated_spec createdAt hnow).1
  rw [Partitioned.insert_isSome_iff, covers_iff (run_inv _ hinv _) hm]
  rw [run_append, run_cons] at hyoung ⊢
  obtain ⟨hinv', -, hhas⟩ := step_create retentionMonths
    (run_inv retentionMonths hinv es)
  exact run_has hinv' ((hhas tbl m).2 (.inr hahead)) hyoung

/-- Rows of August are accepted in June. -/
theorem august_provided : (((run (step 2) (migrated id 1709164800) untilJune).tables .fills).insert
    1724000000).isSome :=
  provided_accepted 2 (by decide) (untilJune.take 2) (untilJune.drop 3) .fills 1724000000 (m := 655)
    (by decide +kernel) (by decide +kernel) (by decide +kernel)

/-- The rows that were accepted, in order. -/
def accepted (retentionMonths : Int) (tbl : PartitionedTable) (db : Database createdAt) (es : List (Event ρ)) :
    List ρ := seen (step retentionMonths) (inserted tbl) db es

/-- The rows that were dropped, in order. -/
def gone (retentionMonths : Int) (tbl : PartitionedTable) (db : Database createdAt) (es : List (Event ρ)) :
    List ρ := seen (step retentionMonths) (dropped retentionMonths tbl) db es

/-- What a step drops is older than the retention. -/
theorem old_of_mem_dropped (h : Inv db) {row : ρ} (hrow : row ∈ dropped retentionMonths tbl db e) :
    ∃ m, InMonth m (createdAt row) ∧ (m : Int) < monthOf db.now - retentionMonths := by
  unfold dropped at hrow
  split at hrow
  · next refused fails =>
    split at hrow
    · exact nomatch hrow
    · obtain ⟨p, hp, hmem⟩ := List.mem_flatMap.1 hrow
      obtain ⟨hp, hdrop⟩ := List.mem_filter.1 hp
      obtain ⟨m, hm⟩ := h.monthly tbl p hp
      exact ⟨m, (hm.takes_iff _).1 ((db.tables tbl).within p hp row hmem), ((archived_iff hm).1 hdrop).1⟩
  · exact nomatch hrow

variable (createdAt) in
/-- **No row is lost.**  The rows that were accepted are those that are stored and those that were dropped;
the log counts the latter, and each was older than the retention when it was dropped. -/
theorem rows_accounted (retentionMonths : Int) {now : Int} (hnow : 0 ≤ now) (es : List (Event ρ))
    (tbl : PartitionedTable) :
    let db := run (step retentionMonths) (migrated createdAt now) es
    ((db.tables tbl).rows ++ gone retentionMonths tbl (migrated createdAt now) es).Perm
        (accepted retentionMonths tbl (migrated createdAt now) es) ∧
      db.logged tbl = (gone retentionMonths tbl (migrated createdAt now) es).length ∧
      Each (step retentionMonths) (fun db e => ∀ row ∈ dropped retentionMonths tbl db e,
        ∃ m, InMonth m (createdAt row) ∧ (m : Int) < monthOf db.now - retentionMonths)
        (migrated createdAt now) es := by
  obtain ⟨hinv, hsame, -⟩ := migrated_spec createdAt hnow
  have hrows : ((migrated createdAt now).tables tbl).rows = [] := hsame.rows tbl
  have hlogged : (migrated createdAt now).logged tbl = 0 := by
    rw [Database.logged, hsame.log]
    rfl
  refine ⟨?_, ?_, each_of_keeps (fun _ e h _ => step_inv h e) (fun _ e h _ row => old_of_mem_dropped h) hinv
    (each_true _ es)⟩
  · have hperm := perm_seen (fun db : Database createdAt => (db.tables tbl).rows)
      (fun _ e h _ => step_inv h e) (fun _ e h _ => step_rows retentionMonths h tbl e) hinv
      (each_true _ es)
    rwa [hrows] at hperm
  · have hcount := count_seen (fun db : Database createdAt => db.logged tbl)
      (fun _ e h _ => step_inv h e) (fun _ e h _ => step_logged retentionMonths h tbl e) hinv
      (each_true _ es)
    rwa [hlogged, Nat.zero_add] at hcount

/-- The row of February is dropped in June. -/
theorem untilJune_accounted : gone 2 .fills (migrated id 1709164800) untilJune = [1709164800] ∧
    (run (step 2) (migrated id 1709164800) untilJune).logged .fills = 1 := by
  have hgone : gone 2 .fills (migrated id 1709164800) untilJune = [1709164800] := by decide +kernel
  have hlogged := (rows_accounted id 2 (show (0 : Int) ≤ 1709164800 by decide) untilJune .fills).2.1
  exact ⟨hgone, hlogged.trans (congrArg List.length hgone)⟩

end Facts

/-! ## Balances and the entries that were dropped -/

/-- A database, and the ledger entries that were dropped from it. -/
structure Audited where
  world : World
  gone : List LedgerEntry

/-- One request of the balance service, one trade that is settled, or one run that archives.  The ledger's
partitions hold the entries of the database, in any order. -/
inductive Audited.Step : Audited → Audited → Prop
  | request {b : Audited} {w' : World} (req : BalanceReq) (hbooked : req.Booked b.world)
      (hsucceeds : req.Succeeds b.world w') : Audited.Step b ⟨w', b.gone⟩
  | settleTrade {b : Audited} {w' : World} (tradeId : Uuid)
      (hrange : (FundsCall.settleTrade tradeId).InRange b.world)
      (hsucceeds : (FundsCall.settleTrade tradeId).Succeeds b.world w') : Audited.Step b ⟨w', b.gone⟩
  | archive {b : Audited} (db : Database LedgerEntry.createdAt) (retentionMonths : Int) (fails : String → Bool)
      (hrows : (db.tables .ledgerEntries).rows.Perm b.world.ledgerEntries) :
      Audited.Step b
        ⟨{ b.world with
            ledgerEntries := ((archiveOldPartitions retentionMonths fails db).tables .ledgerEntries).rows },
          b.gone ++ dropped retentionMonths .ledgerEntries db (.archiveOldPartitions false fails)⟩

/-- The value of some entries, weighted. -/
def entriesSum (χ : Cell → Int) (l : List LedgerEntry) : Int := (l.map fun e => χ e.cell * e.signed).sum

theorem entriesSum_append (χ : Cell → Int) (l l' : List LedgerEntry) :
    entriesSum χ (l ++ l') = entriesSum χ l + entriesSum χ l' := by
  rw [entriesSum, List.map_append, List.sum_append]
  rfl

theorem entriesSum_perm (χ : Cell → Int) {l l' : List LedgerEntry} (h : l.Perm l') :
    entriesSum χ l = entriesSum χ l' := (h.map _).sum_eq

/-- What is held is booked in an entry that is stored or was dropped. -/
structure Audited.Mirrored (b : Audited) : Prop where
  fits : b.world.Fits
  held : ∀ χ, b.world.held χ = b.world.ledgerSum χ + entriesSum χ b.gone

theorem Audited.Mirrored.of_reconciles {b : Audited} {w' : World} (h : b.Mirrored) (hfits : w'.Fits)
    (hrec : Reconciles b.world w') : Audited.Mirrored ⟨w', b.gone⟩ where
  fits := hfits
  held χ := by
    have hheld := h.held χ
    have hmoved := hrec χ
    show w'.held χ = w'.ledgerSum χ + entriesSum χ b.gone
    omega

theorem Audited.Step.mirrored {b b' : Audited} (hstep : b.Step b') (h : b.Mirrored) : b'.Mirrored := by
  cases hstep with
  | request req hbooked hsucceeds =>
    obtain ⟨hfits, hrec⟩ := BalanceReq.reconciles hsucceeds hbooked h.fits
    exact h.of_reconciles hfits hrec
  | settleTrade tradeId hrange hsucceeds =>
    obtain ⟨hfits, hrec⟩ := FundsCall.reconciles hsucceeds hrange h.fits
    exact h.of_reconciles hfits hrec
  | archive db retentionMonths fails hrows =>
    refine ⟨h.fits, fun χ => ?_⟩
    -- the entries of before are those that are kept and those that are dropped
    have hperm := hrows.symm.trans (Partitioned.rows_drop (db.tables .ledgerEntries)
      (archived db.now retentionMonths fails))
    have hsum : b.world.ledgerSum χ = _ := entriesSum_perm χ hperm
    rw [entriesSum_append] at hsum
    show b.world.held χ = entriesSum χ ((archiveOldPartitions retentionMonths fails db).tables _).rows +
      entriesSum χ (b.gone ++ _)
    rw [h.held, hsum, archiveOldPartitions_tables, entriesSum_append]
    exact (add_assoc ..).trans (congrArg₂ _ rfl (add_comm ..))

/-- **What archiving takes off the ledger.**  From a database without balances and ledger entries, after any
run of successful requests, settled trades and archiving, what an account holds is the sum that
`compute_balance` asks for and the value of its entries that were dropped. -/
theorem archived_balance (w₀ : World) (b : Audited) (hbal : w₀.balances.rows = []) (hled : w₀.ledgerEntries = [])
    (hrun : Relation.ReflTransGen Audited.Step ⟨w₀, []⟩ b) (a : Uuid) (s : Asset) :
    b.world.avail (a, s) + b.world.locked (a, s) =
      b.world.computeBalance a s + entriesSum (only (a, s)) b.gone := by
  have hmirrored : b.Mirrored := by
    induction hrun with
    | refl =>
      refine ⟨fits_of_empty hbal, fun χ => ?_⟩
      obtain ⟨hheld, hledg⟩ := mirror_of_empty hbal hled χ
      rw [hheld, hledg]
      rfl
    | tail _ hstep ih => exact hstep.mirrored ih
  rw [← World.ledgerSum_only]
  exact hmirrored.held (only (a, s))

/-- A deposit of February 2024, whose entry is dropped in June. -/
def februaryEnv : Env := ⟨fun i => 1000 + i, fun _ => 1709164800⟩

def deposited : World := (BalanceReq.deposit 2 .USDC 100).after februaryEnv twoAccounts

def depositedLedger : Database LedgerEntry.createdAt :=
  run (step 2) (migrated LedgerEntry.createdAt 1709164800)
    (deposited.ledgerEntries.map (Event.insert .ledgerEntries) ++ [.advance 1718000000])

def depositedDropped : List LedgerEntry :=
  dropped 2 .ledgerEntries depositedLedger (.archiveOldPartitions false fun _ => false)

def depositedKept : World :=
  { deposited with
    ledgerEntries := ((archiveOldPartitions 2 (fun _ => false) depositedLedger).tables .ledgerEntries).rows }

/-- The 100 stay in the balance and leave the ledger. -/
theorem deposit_archived : depositedKept.avail (2, .USDC) = 100 ∧ depositedKept.computeBalance 2 .USDC = 0 := by
  have hdep : (BalanceReq.deposit 2 .USDC 100).Succeeds twoAccounts deposited :=
    BalanceReq.succeeds_after (r := [⟨1000, 2, .USDC, 100, 0, 1709164800⟩]) (by decide)
  have hroom : (BalanceReq.deposit 2 .USDC 100).Booked twoAccounts := by
    show twoAccounts.avail (2, .USDC) + 100 < 2 ^ 63
    decide
  have hrows : (depositedLedger.tables .ledgerEntries).rows.Perm deposited.ledgerEntries := by decide +kernel
  have hrun : Relation.ReflTransGen Audited.Step ⟨twoAccounts, []⟩ ⟨depositedKept, [] ++ depositedDropped⟩ :=
    .tail (.single (.request _ hroom hdep)) (.archive depositedLedger 2 (fun _ => false) hrows)
  have hkept : depositedKept.avail (2, .USDC) + depositedKept.locked (2, .USDC) =
      depositedKept.computeBalance 2 .USDC + entriesSum (only (2, .USDC)) ([] ++ depositedDropped) :=
    archived_balance twoAccounts _ rfl rfl hrun 2 .USDC
  have hgone : entriesSum (only (2, .USDC)) ([] ++ depositedDropped) = 100 := by decide +kernel
  have havail : depositedKept.avail (2, .USDC) = 100 := by decide +kernel
  have hlocked : depositedKept.locked (2, .USDC) = 0 := by decide +kernel
  rw [hgone, havail, hlocked] at hkept
  exact ⟨havail, by omega⟩

end IntentX.Partitions
