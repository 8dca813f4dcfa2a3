import IntentX.Reconcile

/-!
# Transfers

What `BalanceService::transfer` of `src/balances/service.rs` leaves behind.  `transfer_ok` says what
it moves: the sender's cell goes to what the sender's row held less the amount, and the receiver's
to what the receiver's row held *before both writes* plus the amount.  With two accounts these are
two cells and the supply stays; with one account the second write undoes the first and the amount
is created.

    a successful transfer conserves  ↔  from ≠ to and the receiver's balance stays below 2^63
-/

namespace IntentX

open Lib

section Rows

variable {ar : Arith} {env : Env} {w w' : World} {a b : Uuid} {s t : Asset} {x : Int}

/-- `find_or_create` leaves the rows of all other cells alone. -/
theorem findOrCreate_other {r : Balance}
    (h : Call.exec (execStmt ar) (findOrCreate env a s) w = (.ok r, w')) (hk : (b, t) ≠ (a, s)) :
    w'.balance b t = w.balance b t := by
  obtain ⟨row, w₁, hsel, hrest⟩ := Call.exec_bind_ok.1 h
  obtain ⟨rfl, rfl⟩ := query_eq hsel rfl
  rcases hbal : w.balance a s with _ | r₀ <;> rw [hbal] at hrest
  · obtain ⟨_, w₂, hins, hret⟩ := Call.exec_bind_ok.1 hrest
    obtain ⟨t', ht, rfl⟩ := insertBalance_ok (exec_sql_ok.1 hins)
    simp only [Call.exec_pure, Prod.mk.injEq] at hret
    rw [← hret.2]
    show t'.find _ = w.balances.find _
    rw [Table.find_insert_uk ht, if_neg]
    exact hk
  · simp only [Call.exec_pure, Prod.mk.injEq] at hrest
    rw [← hrest.2]

/-- So does writing a row back. -/
theorem updateRow_other {r r' : Balance} (hr : r ∈ w.balances.rows)
    (h : Call.exec (execStmt ar) (updateRow r') w = (.ok (), w')) (hid : r'.id = r.id)
    (hk : (b, t) ≠ r.key) :
    w'.balance b t = w.balance b t := by
  obtain ⟨-, rfl⟩ := query_eq h rfl
  show Table.find _ _ = w.balances.find _
  rw [Table.find_update_uk]
  rcases hrow : w.balances.find (fun c => c.key = (b, t)) with _ | c
  · rfl
  · obtain ⟨hmem, hkey⟩ := Table.find_uk_iff.1 hrow
    have hne : c.id ≠ r'.id := by
      intro he
      have hcr : c = r := eq_of_key_eq w.balances.pk_nodup hmem hr (he.trans hid)
      exact hk (hkey.symm.trans (congrArg Balance.key hcr))
    simp [hne]

end Rows

section Transfer

variable {env : Env} {w w' : World} {a dst : Uuid} {s : Asset} {x : Int} {r : Balance × Balance}

/-- A transfer changes no balance row but the two, and of the other tables only the ledger, to
which it appends. -/
theorem transfer_others {ar : Arith}
    (h : Call.exec (execStmt ar) (transfer ar env a dst s x) w = (.ok r, w')) :
    (∀ b t, (b, t) ≠ (a, s) → (b, t) ≠ (dst, s) → w'.balance b t = w.balance b t) ∧
    ∃ e₁ e₂, w' = { w with
      balances := w'.balances, ledgerEntries := w.ledgerEntries ++ [e₁, e₂] } := by
  constructor
  · intro b t hsrc hdst
    simp only [transfer, createDoubleEntry, Call.exec_bind_ok, Call.exec_failIf_ok,
      Call.exec_mapErr_ok] at h
    obtain ⟨_, _, ⟨-, rfl⟩, b₁, w₁, hfrom, _, _, ⟨-, rfl⟩, b₂, w₂, hto, _, w₃, hup₁, _, w₄, hup₂,
      _, w₅, ⟨e₁, v₁, hent₁, e₂, v₂, hent₂, hret₁⟩, hret⟩ := h
    simp only [Call.exec_pure, Prod.mk.injEq] at hret hret₁
    obtain ⟨-, rfl⟩ := hret₁
    obtain ⟨-, rfl⟩ := hret
    obtain ⟨hmem₁, hkey₁, -, -, -⟩ := findOrCreate_ok hfrom
    obtain ⟨hmem₂, hkey₂, -, -, -⟩ := findOrCreate_ok hto
    obtain ⟨b₃, hmem₃, hid₃, hkey₃⟩ := updateRow_row hmem₂ hup₁
    have hbooks : v₂.balance b t = w₄.balance b t := by
      obtain ⟨_, -, -, rfl⟩ := createEntry_ok hent₁
      obtain ⟨_, -, -, rfl⟩ := createEntry_ok hent₂
      rfl
    rw [hbooks, updateRow_other hmem₃ hup₂ hid₃.symm (by rwa [hkey₃, hkey₂]),
      updateRow_other (findOrCreate_keeps hmem₁ hto) hup₁ rfl (by rwa [hkey₁]),
      findOrCreate_other hto hdst, findOrCreate_other hfrom hsrc]
  · obtain ⟨-, -, w₁, w₂, w₃, hm₁, hm₂, ⟨e₁, -, -, rfl⟩, ⟨e₂, -, -, rfl⟩⟩ := transfer_ok h
    refine ⟨e₁, e₂, ?_⟩
    rw [hm₂.frame, hm₁.frame]
    simp

/-- What a transfer of `x` is for. -/
structure Transferred (a dst : Uuid) (s : Asset) (x : Int) (w w' : World) : Prop where
  supply : w'.availSum (ofAsset s) = w.availSum (ofAsset s)
  sent : a ≠ dst → w'.avail (a, s) = w.avail (a, s) - x
  received : a ≠ dst → w'.avail (dst, s) = w.avail (dst, s) + x
  others : ∀ b t, (b, t) ≠ (a, s) → (b, t) ≠ (dst, s) → w'.balance b t = w.balance b t
  locked : ∀ k, w'.locked k = w.locked k
  frame : ∃ e₁ e₂, w' = { w with
    balances := w'.balances, ledgerEntries := w.ledgerEntries ++ [e₁, e₂] }

/-- Both columns after a transfer of the release build, in any weighted sum. -/
theorem transfer_sums (hfit : w.Fits)
    (h : Call.exec (execStmt .release) (transfer .release env a dst s x) w = (.ok r, w')) :
    ∃ w₁ : World, w₁.avail (dst, s) = w.avail (dst, s) - only (dst, s) (a, s) * x ∧
      (∀ χ, w'.availSum χ = w.availSum χ - χ (a, s) * x +
        χ (dst, s) * (wrapI64 (w.avail (dst, s) + x) - w₁.avail (dst, s))) ∧
      ∀ χ, w'.lockedSum χ = w.lockedSum χ := by
  obtain ⟨hx, hcov, w₁, w₂, w₃, hm₁, hm₂, ⟨_, -, -, rfl⟩, ⟨_, -, -, rfl⟩⟩ := transfer_ok h
  have hf := (hfit (a, s)).1
  have hsent : Arith.release.rust (w.avail (a, s) - x) = w.avail (a, s) - x :=
    Arith.release_rust (by omega)
  rw [hsent] at hm₁
  refine ⟨w₁, ?_, ?_, ?_⟩
  · unfold World.avail
    rw [hm₁.avail]
    unfold World.avail
    ring
  · intro χ
    show w₂.availSum χ = _
    rw [hm₂.avail, hm₁.avail]
    show _ + χ (dst, s) * (wrapI64 _ - _) = _
    ring
  · intro χ
    show w₂.lockedSum χ = _
    rw [hm₂.locked, hm₁.locked]
    ring

/-- A successful transfer does what it is for iff it is between two accounts and the receiver's
balance does not leave the range of `i64`. -/
theorem transfer_conserves_iff (hfit : w.Fits) (hx : x < 2 ^ 63)
    (h : Call.exec (execStmt .release) (transfer .release env a dst s x) w = (.ok r, w')) :
    Transferred a dst s x w w' ↔ a ≠ dst ∧ w.avail (dst, s) + x < 2 ^ 63 := by
  obtain ⟨hpos, hcov, -⟩ := transfer_ok h
  obtain ⟨w₁, hav₁, hsum, hlock⟩ := transfer_sums hfit h
  obtain ⟨hothers, hframe⟩ := transfer_others h
  have hin := (hfit (dst, s)).1
  have hasset : ∀ b : Uuid, ofAsset s (b, s) = 1 := fun b => if_pos rfl
  constructor
  · intro ht
    have hsupply := ht.supply
    rw [hsum, hasset, hasset, hav₁] at hsupply
    have hne : a ≠ dst := by
      rintro rfl
      -- the second write leaves the cell at the old balance plus `x`, wrapped
      have hwrap : wrapI64 (w.avail (a, s) + x) = w.avail (a, s) := by
        rw [only_self] at hsupply
        omega
      unfold wrapI64 at hwrap
      rw [Int.bmod_def] at hwrap
      omega
    refine ⟨hne, ?_⟩
    have hother : only (dst, s) (a, s) = 0 := only_of_ne fun he => hne (congrArg Prod.fst he)
    rw [hother] at hsupply
    have hrange := wrapI64_range (w.avail (dst, s) + x)
    omega
  · rintro ⟨hne, hlt⟩
    have hother : only (dst, s) (a, s) = 0 := only_of_ne fun he => hne (congrArg Prod.fst he)
    have hother' : only (a, s) (dst, s) = 0 := only_of_ne fun he => hne (congrArg Prod.fst he).symm
    rw [hother] at hav₁
    rw [wrapI64_of_inI64 (by omega)] at hsum
    refine ⟨?_, fun _ => ?_, fun _ => ?_, hothers, fun k => hlock (only k), hframe⟩
    · rw [hsum, hasset, hasset, hav₁]
      ring
    · unfold World.avail
      rw [hsum, only_self, hother']
      ring
    · show w'.availSum (only (dst, s)) = _
      rw [hsum, only_self, hother, hav₁]
      unfold World.avail
      ring

end Transfer

/-- Accounts 2 and 3; account 2 has 100 USDC. -/
def transferDemo : World :=
  { World.empty with
    accounts := [⟨2, 10⟩, ⟨3, 11⟩]
    balances := ⟨[⟨20, 2, .USDC, 100, 0, 0⟩], by decide, by decide⟩ }

def transferEnv : Env := ⟨fun i => 1000 + i, fun _ => 0⟩

/-- `transfer(2, to, USDC, 40)` there. -/
def transferFrom2 (dst : Uuid) : Except BalanceError (Balance × Balance) × World :=
  Call.exec (execStmt .release) (transfer .release transferEnv 2 dst .USDC 40) transferDemo

theorem transferDemo_fits : transferDemo.Fits := by
  rintro ⟨a, s⟩
  by_cases h : a = 2 ∧ s = .USDC
  · rw [h.1, h.2]
    decide +kernel
  · have hnone : ∀ b ∈ transferDemo.balances.rows, b.key ≠ (a, s) := by
      intro b hb he
      rw [List.mem_singleton.1 hb] at he
      exact h ⟨(congrArg Prod.fst he).symm, (congrArg Prod.snd he).symm⟩
    rw [World.avail_of_none hnone, World.locked_of_none hnone]
    decide

/-- Between two accounts 40 of the 100 move. -/
theorem transfer_to_another : Transferred 2 3 .USDC 40 transferDemo (transferFrom2 3).2 := by
  have hok : (transferFrom2 3).1.isOk = true := by decide +kernel
  rcases hr : (transferFrom2 3).1 with e | r
  · rw [hr] at hok
    cases hok
  · have hx : Call.exec (execStmt .release) (transfer .release transferEnv 2 3 .USDC 40) transferDemo =
        (.ok r, (transferFrom2 3).2) := Prod.ext hr rfl
    exact (transfer_conserves_iff transferDemo_fits (by decide) hx).2 (by decide +kernel)

/-- A transfer of account 2 to itself succeeds and leaves it with 140. -/
theorem transfer_to_oneself :
    ¬ ∀ (env : Env) (w w' : World) (a dst : Uuid) (s : Asset) (x : Int) (r : Balance × Balance),
      w.Fits → 0 < x → x < 2 ^ 63 →
      Call.exec (execStmt .release) (transfer .release env a dst s x) w = (.ok r, w') →
      Transferred a dst s x w w' := by
  intro h
  have hok : (transferFrom2 2).1.isOk = true := by decide +kernel
  rcases hr : (transferFrom2 2).1 with e | r
  · rw [hr] at hok
    cases hok
  · have ht := h transferEnv transferDemo _ 2 2 .USDC 40 r transferDemo_fits (by decide) (by decide)
      (Prod.ext hr rfl)
    have hsupply := ht.supply
    revert hsupply
    show (transferFrom2 2).2.availSum _ = _ → False
    decide +kernel

end IntentX
