import IntentX.Lib.Group
import IntentX.Sql

/-!
# Candles

`get_candles` of `src/market_data/repository.rs` and `generate_candles` of `src/market_data/service.rs`.  The
query groups the trades of a market by a bucket of their time: the minute rounded down to a multiple of 1, 5 or
15, or the hour or the day.  The session's time zone is UTC, as `sqlx` sets it, so a day has 24 hours.  `"4h"`
truncates to the hour: its buckets are hours, not the four hours `bucket_interval` names (`getCandles_iff`).
-/

namespace IntentX.MarketData

open Lib

/-- A row of `market_trades`, as far as the query reads it. -/
structure MarketTrade where
  marketId : Uuid
  price : Int
  qty : Int
  createdAt : Int
  deriving DecidableEq, Repr

structure Candle where
  marketId : Uuid
  «open» : Int
  high : Int
  low : Int
  close : Int
  volume : Int
  tradeCount : Int
  bucket : Int
  deriving DecidableEq, Repr

/-! ## The query -/

/-- The fields of a time the query truncates to. -/
inductive Field where
  | minute | hour | day
  deriving DecidableEq, Repr

def Field.length : Field → Int
  | .minute => seconds 60
  | .hour => seconds 3600
  | .day => seconds 86400

/-- `date_trunc('field', t)` -/
def dateTrunc (field : Field) (t : Int) : Int := t - t % field.length

/-- `EXTRACT(minute FROM t)::INT` -/
def extractMinute (t : Int) : Int := t % Field.hour.length / Field.minute.length

/-- `m` of the minute buckets. -/
def minutes (interval : String) : Int :=
  match interval with
  | "1m" => 1
  | "5m" => 5
  | "15m" => 15
  | _ => 1

/-- `unit` of the hour and day buckets. -/
def truncUnit (interval : String) : Field :=
  match interval with
  | "1h" | "4h" => .hour
  | "1d" => .day
  | _ => .hour

/-- The expression `bucket` of the query. -/
def bucket (interval : String) (t : Int) : Int :=
  match interval with
  | "1h" | "4h" | "1d" => dateTrunc (truncUnit interval) t
  | _ => dateTrunc .minute t - extractMinute t % minutes interval * Field.minute.length

/-- `WHERE market_id = $1 AND created_at >= $2` -/
def selected (trades : List MarketTrade) (marketId : Uuid) (since : Int) : List MarketTrade :=
  trades.filter fun t => t.marketId = marketId ∧ since ≤ t.createdAt

/-- `SUM(qty)` -/
def totalQty (trades : List MarketTrade) : Int := (trades.map (·.qty)).sum

/-- The two orders of the query: trades of one time come in any order. -/
structure Orders where
  asc : OrderBy MarketTrade.createdAt
  desc : OrderBy fun t : MarketTrade => -t.createdAt

/-- What `SELECT` computes of a group, where the volume is a `BIGINT`. -/
def Orders.candle (o : Orders) (marketId : Uuid) (g : Group MarketTrade Int) : Candle :=
  have hprices : g.rows.map (·.price) ≠ [] := by simp [g.ne_nil]
  { marketId
    «open» := (o.asc.first g.rows g.ne_nil).price
    high := (g.rows.map (·.price)).max hprices
    low := (g.rows.map (·.price)).min hprices
    close := (o.desc.first g.rows g.ne_nil).price
    volume := totalQty g.rows
    tradeCount := g.rows.length
    bucket := g.key }

def Orders.row (o : Orders) (marketId : Uuid) (g : Group MarketTrade Int) : Except SqlError Candle :=
  if inI64 (totalQty g.rows) then .ok (o.candle marketId g) else .error .outOfRange

def getCandles (o : Orders) (trades : List MarketTrade) (marketId : Uuid) (interval : String) (since : Int) :
    Except SqlError (List Candle) :=
  (groupBy (fun t => bucket interval t.createdAt) (selected trades marketId since)).mapM (o.row marketId)

inductive MarketDataError where
  | InvalidInterval (interval : String)
  | DbError (e : SqlError)
  deriving DecidableEq, Repr

/-- `lookback`: how far back the candles of an interval go. -/
def lookback (interval : String) : Except MarketDataError Int :=
  match interval with
  | "1m" => .ok (seconds (6 * 3600))
  | "5m" => .ok (seconds (24 * 3600))
  | "15m" => .ok (seconds (3 * 86400))
  | "1h" => .ok (seconds (7 * 86400))
  | "4h" => .ok (seconds (30 * 86400))
  | "1d" => .ok (seconds (90 * 86400))
  | other => .error (.InvalidInterval other)

def generateCandles (o : Orders) (trades : List MarketTrade) (marketId : Uuid) (interval : String) (now : Int) :
    Except MarketDataError (List Candle) := do
  let back ← lookback interval
  (getCandles o trades marketId interval (now - back)).mapError .DbError

/-! ## What candles are -/

/-- `bucket_interval`: the length of an interval. -/
def bucketInterval (interval : String) : Int :=
  match interval with
  | "1m" => seconds 60
  | "5m" => 5 * seconds 60
  | "15m" => 15 * seconds 60
  | "1h" => seconds 3600
  | "4h" => 4 * seconds 3600
  | "1d" => seconds 86400
  | _ => seconds 60

/-- `t` is in the bucket of `c`. -/
def Candle.Covers (c : Candle) (len t : Int) : Prop := c.bucket ≤ t ∧ t < c.bucket + len

instance (c : Candle) (len t : Int) : Decidable (c.Covers len t) := inferInstanceAs (Decidable (_ ∧ _))

/-- The figures of `c` are those of the trades. -/
structure Candle.Summarises (c : Candle) (trades : List MarketTrade) : Prop where
  volume : c.volume = totalQty trades
  tradeCount : c.tradeCount = trades.length
  high : (∃ t ∈ trades, t.price = c.high) ∧ ∀ t ∈ trades, t.price ≤ c.high
  low : (∃ t ∈ trades, t.price = c.low) ∧ ∀ t ∈ trades, c.low ≤ t.price
  «open» : ∃ t ∈ trades, t.price = c.open ∧ ∀ t' ∈ trades, t.createdAt ≤ t'.createdAt
  close : ∃ t ∈ trades, t.price = c.close ∧ ∀ t' ∈ trades, t'.createdAt ≤ t.createdAt

/-- The candles divide the trades into buckets of length `len`. -/
structure Partition (len : Int) (trades : List MarketTrade) (candles : List Candle) : Prop where
  apart : ∀ c ∈ candles, ∀ c' ∈ candles, len ∣ c.bucket - c'.bucket
  increasing : candles.Pairwise (·.bucket < ·.bucket)
  covered : ∀ t ∈ trades, ∃! c, c ∈ candles ∧ c.Covers len t.createdAt
  figures : ∀ c ∈ candles, c.Summarises (trades.filter fun t => c.Covers len t.createdAt)

/-! ## The grid of the buckets -/

/-- The distance between possible starts of buckets. -/
def cell (interval : String) : Int :=
  match interval with
  | "1h" | "4h" | "1d" => (truncUnit interval).length
  | _ => minutes interval * Field.minute.length

/-- How many cells an interval has. -/
def cells (interval : String) : Int := if interval = "4h" then 4 else 1

theorem dateTrunc_eq (field : Field) (t : Int) : dateTrunc field t = field.length * (t / field.length) := by
  have := Int.mul_ediv_add_emod t field.length
  unfold dateTrunc
  omega

theorem minutes_cases (interval : String) :
    minutes interval = 1 ∨ minutes interval = 5 ∨ minutes interval = 15 := by
  unfold minutes
  split <;> simp

/-- Minutes rounded down to a multiple that divides the hour. -/
theorem minuteBucket_eq {m : Int} (hm : m = 1 ∨ m = 5 ∨ m = 15) (t : Int) :
    dateTrunc .minute t - extractMinute t % m * Field.minute.length =
      m * Field.minute.length * (t / (m * Field.minute.length)) := by
  simp only [dateTrunc, extractMinute, Field.length, seconds]
  rcases hm with rfl | rfl | rfl <;> omega

theorem bucket_eq (interval : String) (t : Int) : bucket interval t = cell interval * (t / cell interval) := by
  unfold bucket cell
  split
  · exact dateTrunc_eq _ t
  · exact dateTrunc_eq _ t
  · exact dateTrunc_eq _ t
  · exact minuteBucket_eq (minutes_cases interval) t

theorem cell_pos (interval : String) : 0 < cell interval := by
  have hm := minutes_cases interval
  unfold cell
  split
  · decide
  · decide
  · decide
  · simp only [Field.length, seconds]
    omega

theorem cells_pos (interval : String) : 0 < cells interval := by
  unfold cells
  split <;> decide

theorem bucketInterval_eq (interval : String) : bucketInterval interval = cell interval * cells interval := by
  unfold bucketInterval
  split
  · decide
  · decide
  · decide
  · decide
  · decide
  · decide
  · rename_i h1m h5m h15m h1h h4h h1d
    simp [cell, cells, minutes, Field.length, show interval ≠ "4h" from h4h]

/-- The cells of any two trades are whole intervals apart. -/
def Aligned (interval : String) (trades : List MarketTrade) : Prop :=
  ∀ t ∈ trades, ∀ t' ∈ trades, cells interval ∣ t.createdAt / cell interval - t'.createdAt / cell interval

theorem aligned_iff {interval : String} {trades : List MarketTrade} :
    Aligned interval trades ↔ (interval = "4h" → ∀ t ∈ trades, ∀ t' ∈ trades,
      4 ∣ t.createdAt / Field.hour.length - t'.createdAt / Field.hour.length) := by
  unfold Aligned
  by_cases h : interval = "4h"
  · subst h
    simp [cell, cells, truncUnit]
  · simp [cells, h]

/-! ## The rows of the query -/

section Query

variable {o : Orders} {marketId : Uuid} {interval : String} {trades : List MarketTrade}
  {g : Group MarketTrade Int} {t : MarketTrade}

/-- The groups of the query. -/
def buckets (interval : String) (trades : List MarketTrade) : List (Group MarketTrade Int) :=
  groupBy (fun t => bucket interval t.createdAt) trades

theorem row_ok_iff (g : Group MarketTrade Int) (c : Candle) :
    o.row marketId g = .ok c ↔ inI64 (totalQty g.rows) = true ∧ c = o.candle marketId g := by
  unfold Orders.row
  split <;> simp [*, eq_comm]

theorem getCandles_ok_iff {since : Int} {candles : List Candle} :
    getCandles o trades marketId interval since = .ok candles ↔
      (∀ g ∈ buckets interval (selected trades marketId since), inI64 (totalQty g.rows) = true) ∧
        candles = (buckets interval (selected trades marketId since)).map (o.candle marketId) :=
  mapM_ok_iff row_ok_iff _ candles

theorem candle_summarises (o : Orders) (marketId : Uuid) (g : Group MarketTrade Int) :
    (o.candle marketId g).Summarises g.rows where
  volume := rfl
  tradeCount := rfl
  high := by
    refine ⟨List.mem_map.1 (List.max_mem _), ?_⟩
    intro t ht
    exact List.le_max_of_mem (List.mem_map_of_mem ht)
  low := by
    refine ⟨List.mem_map.1 (List.min_mem _), ?_⟩
    intro t ht
    exact List.min_le_of_mem (List.mem_map_of_mem ht)
  «open» := ⟨_, o.asc.first_mem g.ne_nil, rfl, o.asc.first_le g.ne_nil⟩
  close := by
    refine ⟨_, o.desc.first_mem g.ne_nil, rfl, ?_⟩
    intro t ht
    exact Int.neg_le_neg_iff.1 (o.desc.first_le g.ne_nil t ht)

/-- Two trades in one group. -/
theorem bucket_inj {a b : Int} : bucket interval a = bucket interval b ↔ a / cell interval = b / cell interval := by
  rw [bucket_eq, bucket_eq, Int.mul_eq_mul_left_iff (cell_pos interval).ne']

theorem covers_iff (h : Aligned interval trades) (hg : g ∈ buckets interval trades) (ht : t ∈ trades) :
    (o.candle marketId g).Covers (bucketInterval interval) t.createdAt ↔
      g.key = bucket interval t.createdAt := by
  obtain ⟨t₀, ht₀, hkey⟩ := key_of_mem hg
  show g.key ≤ t.createdAt ∧ t.createdAt < g.key + bucketInterval interval ↔ _
  rw [← hkey, eq_comm, bucket_inj, bucketInterval_eq, bucket_eq]
  exact interval_iff (cell_pos interval) (cells_pos interval) (h t ht t₀ ht₀)

/-- The trades a candle covers are those of its group. -/
theorem filter_covers (h : Aligned interval trades) (hg : g ∈ buckets interval trades) :
    trades.filter (fun t => (o.candle marketId g).Covers (bucketInterval interval) t.createdAt) = g.rows := by
  rw [rows_of_mem hg]
  apply List.filter_congr
  intro t ht
  rw [decide_eq_decide, covers_iff h hg ht, eq_comm]

theorem partition_of_aligned (h : Aligned interval trades) :
    Partition (bucketInterval interval) trades ((buckets interval trades).map (o.candle marketId)) where
  apart := by
    intro c hc c' hc'
    obtain ⟨g, hg, rfl⟩ := List.mem_map.1 hc
    obtain ⟨g', hg', rfl⟩ := List.mem_map.1 hc'
    obtain ⟨t, ht, hkey⟩ := key_of_mem hg
    obtain ⟨t', ht', hkey'⟩ := key_of_mem hg'
    show _ ∣ g.key - g'.key
    rw [← hkey, ← hkey', bucket_eq, bucket_eq, ← Int.mul_sub, bucketInterval_eq]
    exact Int.mul_dvd_mul_left _ (h t ht t' ht')
  increasing := List.pairwise_map.2 (groupBy_increasing _ trades)
  covered := by
    intro t ht
    obtain ⟨g, ⟨hg, hkey⟩, huniq⟩ := exists_unique_group (fun t => bucket interval t.createdAt) ht
    refine ⟨o.candle marketId g, ⟨List.mem_map_of_mem hg, (covers_iff h hg ht).2 hkey⟩, ?_⟩
    rintro c ⟨hc, hcov⟩
    obtain ⟨g', hg', rfl⟩ := List.mem_map.1 hc
    rw [huniq g' ⟨hg', (covers_iff h hg' ht).1 hcov⟩]
  figures := by
    intro c hc
    obtain ⟨g, hg, rfl⟩ := List.mem_map.1 hc
    rw [filter_covers h hg]
    exact candle_summarises o marketId g

/-- Starts of buckets a multiple of the length apart. -/
theorem aligned_of_partition
    (h : Partition (bucketInterval interval) trades ((buckets interval trades).map (o.candle marketId))) :
    Aligned interval trades := by
  intro t ht t' ht'
  obtain ⟨g, ⟨hg, hkey⟩, _⟩ := exists_unique_group (fun t => bucket interval t.createdAt) ht
  obtain ⟨g', ⟨hg', hkey'⟩, _⟩ := exists_unique_group (fun t => bucket interval t.createdAt) ht'
  have hdvd : bucketInterval interval ∣ g.key - g'.key :=
    h.apart _ (List.mem_map_of_mem hg) _ (List.mem_map_of_mem hg')
  rw [hkey, hkey', bucket_eq, bucket_eq, ← Int.mul_sub, bucketInterval_eq] at hdvd
  exact Int.dvd_of_mul_dvd_mul_left (cell_pos interval).ne' hdvd

/-- The trades of one interval are the trades of one group. -/
theorem filter_interval (h : Aligned interval trades) (hg : g ∈ buckets interval trades) {t₀ : MarketTrade}
    (ht₀ : t₀ ∈ trades) (hkey : bucket interval t₀.createdAt = g.key) :
    trades.filter (fun t => t.createdAt / bucketInterval interval = t₀.createdAt / bucketInterval interval) =
      g.rows := by
  rw [rows_of_mem hg]
  apply List.filter_congr
  intro t ht
  rw [decide_eq_decide, ← hkey, bucket_inj, bucketInterval_eq]
  exact same_interval_iff (cell_pos interval) (cells_pos interval) (h t ht t₀ ht₀)

theorem volumes_iff (h : Aligned interval trades) :
    (∀ g ∈ buckets interval trades, inI64 (totalQty g.rows) = true) ↔
      ∀ k, inI64 (totalQty (trades.filter fun t => t.createdAt / bucketInterval interval = k)) = true := by
  constructor
  · intro hfits k
    by_cases hk : ∃ t ∈ trades, t.createdAt / bucketInterval interval = k
    · obtain ⟨t, ht, rfl⟩ := hk
      obtain ⟨g, ⟨hg, hkey⟩, _⟩ := exists_unique_group (fun t => bucket interval t.createdAt) ht
      rw [filter_interval h hg ht hkey.symm]
      exact hfits g hg
    · have hnone : trades.filter (fun t => t.createdAt / bucketInterval interval = k) = [] := by
        rw [List.filter_eq_nil_iff]
        intro t ht hkey
        exact hk ⟨t, ht, of_decide_eq_true hkey⟩
      rw [hnone]
      rfl
  · intro hfits g hg
    obtain ⟨t, ht, hkey⟩ := key_of_mem hg
    rw [← filter_interval h hg ht hkey]
    exact hfits _

end Query

/-! ## Main results -/

/-- The candles of a market divide its trades since `since` into buckets of the interval's length iff the volume
of every bucket is a `BIGINT` and, for `"4h"`, the hours of the trades are multiples of four hours apart. -/
theorem getCandles_iff (o : Orders) (trades : List MarketTrade) (marketId : Uuid) (interval : String)
    (since : Int) :
    (∃ candles, getCandles o trades marketId interval since = .ok candles ∧
        Partition (bucketInterval interval) (selected trades marketId since) candles) ↔
      (∀ k, inI64 (totalQty ((selected trades marketId since).filter fun t =>
          t.createdAt / bucketInterval interval = k)) = true) ∧
        (interval = "4h" → ∀ t ∈ selected trades marketId since, ∀ t' ∈ selected trades marketId since,
          4 ∣ t.createdAt / Field.hour.length - t'.createdAt / Field.hour.length) := by
  rw [← aligned_iff]
  constructor
  · rintro ⟨candles, hok, hpart⟩
    obtain ⟨hfits, rfl⟩ := getCandles_ok_iff.1 hok
    have halign := aligned_of_partition hpart
    exact ⟨(volumes_iff halign).1 hfits, halign⟩
  · rintro ⟨hfits, halign⟩
    exact ⟨_, getCandles_ok_iff.2 ⟨(volumes_iff halign).2 hfits, rfl⟩, partition_of_aligned halign⟩

/-- Two trades, half an hour and an hour and a half after midnight. -/
def demoTrades : List MarketTrade := [⟨1, 10, 2, seconds 1800⟩, ⟨1, 12, 3, seconds 5400⟩]

def demoOrders : Orders := ⟨.stable _, .stable _⟩

def demoCandles : List Candle := [⟨1, 10, 10, 10, 10, 2, 1, 0⟩, ⟨1, 12, 12, 12, 12, 3, 1, seconds 3600⟩]

/-- Their candles of four hours start one hour apart, and both cover the second trade. -/
theorem fourHours_overlap :
    getCandles demoOrders demoTrades 1 "4h" 0 = .ok demoCandles ∧
      (∀ c ∈ demoCandles, c.Covers (bucketInterval "4h") (seconds 5400)) ∧
      ¬ Partition (bucketInterval "4h") (selected demoTrades 1 0) demoCandles := by
  refine ⟨by decide, by decide, ?_⟩
  intro h
  have hdvd := h.apart ⟨1, 12, 12, 12, 12, 3, 1, seconds 3600⟩ (by decide) ⟨1, 10, 10, 10, 10, 2, 1, 0⟩ (by decide)
  exact absurd hdvd (by decide)

/-- A candle that starts at or after `since` covers every trade of its bucket. -/
theorem selected_covers {trades : List MarketTrade} {marketId : Uuid} {since : Int} {c : Candle}
    (h : since ≤ c.bucket) (len : Int) :
    (selected trades marketId since).filter (fun t => c.Covers len t.createdAt) =
      trades.filter fun t => t.marketId = marketId ∧ c.Covers len t.createdAt := by
  unfold selected
  rw [List.filter_filter]
  apply List.filter_congr
  intro t _
  rw [← Bool.decide_and, decide_eq_decide]
  constructor
  · rintro ⟨hcov, hmarket, _⟩
    exact ⟨hmarket, hcov⟩
  · rintro ⟨hmarket, hcov⟩
    exact ⟨hcov, hmarket, h.trans hcov.1⟩

/-- What the service returns for an interval but `"4h"` divides the trades it looks back at. -/
theorem generateCandles_partition {o : Orders} {trades : List MarketTrade} {marketId : Uuid} {interval : String}
    {now : Int} {candles : List Candle} (hi : interval ≠ "4h")
    (h : generateCandles o trades marketId interval now = .ok candles) :
    ∃ back, lookback interval = .ok back ∧
      Partition (bucketInterval interval) (selected trades marketId (now - back)) candles := by
  unfold generateCandles at h
  cases hback : lookback interval with
  | error e =>
    rw [hback] at h
    cases h
  | ok back =>
    rw [hback] at h
    change (getCandles o trades marketId interval (now - back)).mapError _ = _ at h
    refine ⟨back, rfl, ?_⟩
    cases hget : getCandles o trades marketId interval (now - back) with
    | error e =>
      rw [hget] at h
      cases h
    | ok found =>
      rw [hget] at h
      cases h
      obtain ⟨_, rfl⟩ := getCandles_ok_iff.1 hget
      exact partition_of_aligned (aligned_iff.2 fun h4 => absurd h4 hi)

end IntentX.MarketData
