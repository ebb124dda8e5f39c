import AdraLrt.TokenLedger.Privilege
import Mathlib.Algebra.BigOperators.Group.Finset.Basic
import Mathlib.Algebra.BigOperators.Group.Finset.Piecewise
import Mathlib.Algebra.Order.BigOperators.Group.Finset

/-!
# Conservation

The token program never lets the accounts of a mint hold more than its supply: over every finite set
of accounts the amounts add up to at most the supply, which is an unsigned 64-bit number
(`Ledger.Conserved`). Every instruction keeps this (`process_conserved`), so credits between
existing accounts cannot overflow (`Conserved.add_le`).
-/

set_option autoImplicit false

namespace TokenLedger

open Checked

variable {K : Type} [DecidableEq K]

/-- The amount of mint `m` in the account at `k`. -/
def Ledger.holdings (l : Ledger K) (m k : K) : Nat :=
  match l.accounts k with
  | some a => if a.mint = m then a.amount else 0
  | none => 0

/-- Over every finite set of accounts the holdings of a mint are covered by its supply. -/
def Ledger.Conserved (l : Ledger K) : Prop :=
  ∀ m, l.supply m ≤ u64Max ∧ ∀ d : Finset K, ∑ k ∈ d, l.holdings m k ≤ l.supply m

theorem holdings_of_some {l : Ledger K} {k : K} {a : TokenAccount K} (h : l.accounts k = some a)
    (m : K) : l.holdings m k = if a.mint = m then a.amount else 0 := by
  simp [Ledger.holdings, h]

theorem holdings_setAccount (l : Ledger K) (k j m : K) (a : TokenAccount K) :
    (l.setAccount k (some a)).holdings m j =
      if j = k then (if a.mint = m then a.amount else 0) else l.holdings m j := by
  by_cases h : j = k
  · simp [Ledger.holdings, h]
  · simp [Ledger.holdings, h]

@[simp] theorem holdings_setMint (l : Ledger K) (k j m : K) (x : Mint K) :
    (l.setMint k x).holdings m j = l.holdings m j := rfl

section Conserved

variable {l l' : Ledger K}

/-- One account is covered by the supply. -/
theorem Ledger.Conserved.balance_le (h : l.Conserved) {k : K} {a : TokenAccount K}
    (ha : l.accounts k = some a) : a.amount ≤ l.supply a.mint := by
  have hsum := (h a.mint).2 {k}
  simpa [holdings_of_some ha] using hsum

/-- Two accounts of one mint are covered by the supply together. -/
theorem Ledger.Conserved.add_le (h : l.Conserved) {k j : K} {a b : TokenAccount K} (hne : k ≠ j)
    (ha : l.accounts k = some a) (hb : l.accounts j = some b) (hm : b.mint = a.mint) :
    a.amount + b.amount ≤ l.supply a.mint := by
  have hsum := (h a.mint).2 {k, j}
  rw [Finset.sum_pair hne, holdings_of_some ha, holdings_of_some hb] at hsum
  simpa [hm] using hsum

theorem Ledger.Conserved.supply_le (h : l.Conserved) (m : K) : l.supply m ≤ u64Max := (h m).1

/-- If `g` loses `x` at `s` and gains at most `y` at `t` compared to `f`, so do the sums. -/
theorem sum_moved {f g : K → Nat} {s t : K} {x y : Nat}
    (h : ∀ k, g k + (if k = s then x else 0) ≤ f k + (if k = t then y else 0)) (d : Finset K) :
    ∑ k ∈ d, g k + x ≤ ∑ k ∈ insert s d, f k + y := by
  -- `x` is taken from the sum only if `s` is summed over
  calc ∑ k ∈ d, g k + x
      ≤ ∑ k ∈ insert s d, g k + ∑ k ∈ insert s d, (if k = s then x else 0) := by
        refine Nat.add_le_add (Finset.sum_le_sum_of_subset (Finset.subset_insert s d)) ?_
        simp
    _ = ∑ k ∈ insert s d, (g k + if k = s then x else 0) := Finset.sum_add_distrib.symm
    _ ≤ ∑ k ∈ insert s d, (f k + if k = t then y else 0) := Finset.sum_le_sum fun k _ => h k
    _ = ∑ k ∈ insert s d, f k + ∑ k ∈ insert s d, (if k = t then y else 0) :=
        Finset.sum_add_distrib
    _ ≤ ∑ k ∈ insert s d, f k + y := by
        refine Nat.add_le_add_left ?_ _
        rw [Finset.sum_ite_eq']
        split <;> omega

/-- What an instruction may do to the holdings and the supply of one mint: `x` leaves an account
and `y` enters another, and the supply moves by the difference at least. -/
def Moves (l l' : Ledger K) (m : K) : Prop :=
  ∃ s t x y, (∀ k, l'.holdings m k + (if k = s then x else 0) ≤
      l.holdings m k + (if k = t then y else 0)) ∧
    l.supply m + y ≤ l'.supply m + x ∧ l'.supply m ≤ max (l.supply m) u64Max

theorem moves_of_eq {m k : K} (hh : ∀ j, l'.holdings m j = l.holdings m j)
    (hs : l'.supply m = l.supply m) : Moves l l' m :=
  ⟨k, k, 0, 0, fun j => by simp [hh j], by simp [hs], by simp [hs]⟩

/-- Replacing an account by one with the same mint and amount moves nothing. -/
theorem moves_setAccount_same {k : K} {a b : TokenAccount K} (ha : l.accounts k = some a)
    (hm : b.mint = a.mint) (hb : b.amount = a.amount) (m : K) :
    Moves l (l.setAccount k (some b)) m := by
  refine moves_of_eq (k := k) (fun j => ?_) rfl
  rw [holdings_setAccount]
  split
  · next h => rw [h, holdings_of_some ha, hm, hb]
  · rfl

theorem moves_setMint_same {k : K} {x y : Mint K} (hx : l.mints k = some x)
    (hy : y.supply = x.supply) (m : K) : Moves l (l.setMint k y) m := by
  refine moves_of_eq (k := k) (fun j => rfl) ?_
  rw [Ledger.supply_setMint]
  split
  · next h => rw [h, hy, Ledger.supply_of_some hx]
  · rfl

theorem processTransfer_moves {program source destination authority : K} {amount : Nat}
    {checked : Option (K × UInt8)}
    (h : processTransfer program source destination authority amount checked l = .ok l') (m : K) :
    Moves l l' m := by
  obtain ⟨src, dst, fee, h⟩ := (processTransfer_eq_ok_iff ..).1 h
  have hres := h.result
  split at hres
  · rw [hres]
    exact moves_of_eq (k := source) (fun _ => rfl) rfl
  · next hne =>
      obtain ⟨hfee, -, rfl⟩ := hres
      have hfunds := h.funds
      have hs := holdings_of_some h.source_some m
      have hd := holdings_of_some h.destination_some m
      by_cases hm : src.mint = m
      · have hdm : dst.mint = m := h.mint_eq ▸ hm
        rw [if_pos hm] at hs
        rw [if_pos hdm] at hd
        -- a fee makes the destination gain less than `amount`, as `Moves` allows
        refine ⟨source, destination, amount, amount, fun k => ?_, ?_, ?_⟩
        · simp only [holdings_setAccount, TokenAccount.credit_mint, TokenAccount.credit_amount,
            TokenAccount.debit_mint, TokenAccount.debit_amount, authorized_mint,
            authorized_amount, hm, hdm, if_true]
          by_cases hk : k = destination
          · subst hk
            simp only [if_true, if_neg (Ne.symm hne)]
            omega
          · by_cases hk' : k = source
            · subst hk'
              simp only [if_true, if_neg hk]
              omega
            · simp [hk, hk']
        · exact Nat.le_refl _
        · exact Nat.le_max_left _ _
      · -- neither account is of the mint `m`
        have hdm : dst.mint ≠ m := h.mint_eq ▸ hm
        refine moves_of_eq (k := source) (fun k => ?_) rfl
        rw [if_neg hm] at hs
        rw [if_neg hdm] at hd
        simp only [holdings_setAccount, TokenAccount.credit_mint, TokenAccount.debit_mint,
          authorized_mint, hm, hdm, if_false]
        split
        · next hk => rw [hk, hd]
        · split
          · next hk => rw [hk, hs]
          · rfl

theorem processMintTo_moves {program mint destination authority : K} {amount : Nat}
    (h : processMintTo program mint destination authority amount l = .ok l') (m : K) :
    Moves l l' m := by
  obtain ⟨dst, x, hd, -, -, hmint, hx, -, -, -, hmax, rfl⟩ := (processMintTo_eq_ok_iff ..).1 h
  have hh := holdings_of_some hd m
  have hsup := Ledger.supply_of_some hx
  by_cases hm : m = mint
  · subst hm
    rw [if_pos hmint.symm] at hh
    refine ⟨destination, destination, 0, amount, fun k => ?_, ?_, ?_⟩
    · simp only [holdings_setMint, holdings_setAccount, TokenAccount.credit_mint,
        TokenAccount.credit_amount, hmint.symm, if_true]
      by_cases hk : k = destination
      · subst hk
        simp only [if_true]
        omega
      · simp [hk]
    · simp only [Ledger.supply_setMint, if_true, Mint.withSupply_supply, hsup]
      omega
    · simp only [Ledger.supply_setMint, if_true, Mint.withSupply_supply]
      omega
  · have hdm : dst.mint ≠ m := fun e => hm (e.symm.trans hmint.symm)
    rw [if_neg hdm] at hh
    refine moves_of_eq (k := destination) (fun k => ?_) ?_
    · simp only [holdings_setMint, holdings_setAccount, TokenAccount.credit_mint, hdm, if_false]
      split
      · next hk => rw [hk, hh]
      · rfl
    · simp [Ledger.supply_setMint, hm]

theorem processBurn_moves {program source mint authority : K} {amount : Nat}
    (h : processBurn program source mint authority amount l = .ok l') (m : K) :
    Moves l l' m := by
  obtain ⟨src, x, hs, -, hx, -, -, hfunds, hmint, -, hle, rfl⟩ := (processBurn_eq_ok_iff ..).1 h
  have hh := holdings_of_some hs m
  have hsup := Ledger.supply_of_some hx
  by_cases hm : m = mint
  · subst hm
    rw [if_pos hmint.symm] at hh
    refine ⟨source, source, amount, 0, fun k => ?_, ?_, ?_⟩
    · simp only [holdings_setMint, holdings_setAccount, TokenAccount.debit_mint,
        TokenAccount.debit_amount, authorized_mint, authorized_amount, hmint.symm, if_true]
      by_cases hk : k = source
      · subst hk
        simp only [if_true]
        omega
      · simp [hk]
    · simp only [Ledger.supply_setMint, if_true, Mint.withSupply_supply, hsup]
      omega
    · simp only [Ledger.supply_setMint, if_true, Mint.withSupply_supply, hsup]
      omega
  · have hsm : src.mint ≠ m := fun e => hm (e.symm.trans hmint.symm)
    rw [if_neg hsm] at hh
    refine moves_of_eq (k := source) (fun k => ?_) ?_
    · simp only [holdings_setMint, holdings_setAccount, TokenAccount.debit_mint, authorized_mint,
        hsm, if_false]
      split
      · next hk => rw [hk, hh]
      · rfl
    · simp [Ledger.supply_setMint, hm]

theorem process_moves {program : K} {ix : TokenIx K} (h : process program ix l = .ok l') (m : K) :
    Moves l l' m := by
  cases ix with
  | initializeMint mint decimals mintAuthority freezeAuthority =>
      obtain ⟨hnone, -, rfl⟩ := (processInitializeMint_eq_ok_iff ..).1 h
      refine moves_of_eq (k := mint) (fun _ => rfl) ?_
      rw [Ledger.supply_setMint]
      split
      · next hm => simp [hm, Ledger.supply, hnone]
      · rfl
  | initializeAccount account mint owner =>
      obtain ⟨x, -, hnone, -, -, rfl⟩ := (processInitializeAccount_eq_ok_iff ..).1 h
      refine moves_of_eq (k := account) (fun j => ?_) rfl
      rw [holdings_setAccount]
      split
      · next hj =>
          rw [hj, Ledger.holdings, hnone]
          exact ite_self 0
      · rfl
  | transfer source destination authority amount checked => exact processTransfer_moves h m
  | approve source delegate authority amount =>
      obtain ⟨src, hs, -, -, -, rfl⟩ := (processApprove_eq_ok_iff ..).1 h
      exact moves_setAccount_same hs (by rfl) (by rfl) m
  | revoke source authority =>
      obtain ⟨src, hs, -, -, -, rfl⟩ := (processRevoke_eq_ok_iff ..).1 h
      exact moves_setAccount_same hs (by rfl) (by rfl) m
  | setAuthority owned authority change =>
      have h' := (processSetAuthority_eq_ok_iff ..).1 h
      cases change with
      | mintTokens new =>
          obtain ⟨x, hx, -, -, rfl⟩ := h'
          exact moves_setMint_same hx (by rfl) m
      | freezeAccount new =>
          obtain ⟨x, hx, -, -, rfl⟩ := h'
          exact moves_setMint_same hx (by rfl) m
      | accountOwner new =>
          obtain ⟨a, ha, -, -, -, rfl⟩ := h'
          exact moves_setAccount_same ha (by rfl) (by rfl) m
      | closeAccount new =>
          obtain ⟨a, ha, -, -, -, rfl⟩ := h'
          exact moves_setAccount_same ha (by rfl) (by rfl) m
  | mintTo mint destination authority amount => exact processMintTo_moves h m
  | burn source mint authority amount => exact processBurn_moves h m
  | closeAccount account destination authority =>
      obtain ⟨a, -, ha, -, h0, -, -, rfl⟩ := (processCloseAccount_eq_ok_iff ..).1 h
      refine moves_of_eq (k := account) (fun j => ?_) rfl
      by_cases hj : j = account
      · simp [Ledger.holdings, hj, ha, h0]
      · simp [Ledger.holdings, hj]
  | freezeAccount account mint authority =>
      obtain ⟨a, x, ha, -, -, -, -, -, -, rfl⟩ := (processToggleFreeze_eq_ok_iff ..).1 h
      exact moves_setAccount_same ha (by rfl) (by rfl) m
  | thawAccount account mint authority =>
      obtain ⟨a, x, ha, -, -, -, -, -, -, rfl⟩ := (processToggleFreeze_eq_ok_iff ..).1 h
      exact moves_setAccount_same ha (by rfl) (by rfl) m

/-- Conservation survives whatever moves the holdings and the supply together. -/
theorem Ledger.Conserved.of_moves (hc : l.Conserved) (h : ∀ m, Moves l l' m) : l'.Conserved := by
  intro m
  obtain ⟨s, t, x, y, hmove, hsupply, hmax⟩ := h m
  have hbound := (hc m).1
  refine ⟨by omega, fun d => ?_⟩
  have hsum := sum_moved hmove d
  have hcover := (hc m).2 (insert s d)
  omega

/-- Every instruction keeps the holdings covered. -/
theorem process_conserved {program : K} {ix : TokenIx K} (hc : l.Conserved)
    (h : process program ix l = .ok l') : l'.Conserved :=
  hc.of_moves (process_moves h)

/-- So does every sequence of admitted instructions. -/
theorem reach_conserved {p : Privileges K} (hc : l.Conserved)
    (h : Reach p l l') : l'.Conserved :=
  reach_invariant h hc fun _ _ _ _ hm hix => process_conserved hm ((exec_eq_ok_iff ..).1 hix).2

/-- Creating an empty account at a free address keeps the holdings covered. -/
theorem conserved_create (hc : l.Conserved) {k : K} (hk : l.accounts k = none)
    {a : TokenAccount K} (ha : a.amount = 0) : (l.setAccount k (some a)).Conserved := by
  refine hc.of_moves fun m => moves_of_eq (k := k) (fun j => ?_) rfl
  rw [holdings_setAccount]
  split
  · next hj => simp [hj, Ledger.holdings, hk, ha]
  · rfl

end Conserved

end TokenLedger
