import AdraLrt.TokenLedger.Conservation

/-!
# Finite ledgers

A ledger given by the lists of its mints and accounts, in which the first entry of a key counts.
What its accounts hold of a mint is at most what the list holds, so whether its supplies cover the
balances can be decided on the lists (`Covered`).
-/

set_option autoImplicit false

namespace TokenLedger

open Checked

variable {K : Type} [DecidableEq K]

/-- The ledger with the listed mints and accounts. -/
def Ledger.ofLists (mints : List (K × Mint K)) (accounts : List (K × TokenAccount K)) :
    Ledger K where
  mints k := mints.lookup k
  accounts k := accounts.lookup k

/-- What the listed accounts hold of the mint `m` together. -/
def listed (m : K) : List (K × TokenAccount K) → Nat
  | [] => 0
  | e :: rest => (if e.2.mint = m then e.2.amount else 0) + listed m rest

/-- Every listed supply fits, and covers what the listed accounts hold of its mint. -/
def Covered (mints : List (K × Mint K)) (accounts : List (K × TokenAccount K)) : Prop :=
  (∀ e ∈ mints, e.2.supply ≤ u64Max) ∧
    ∀ e ∈ accounts, listed e.2.mint accounts ≤ (Ledger.ofLists mints accounts).supply e.2.mint

instance (mints : List (K × Mint K)) (accounts : List (K × TokenAccount K)) :
    Decidable (Covered mints accounts) :=
  inferInstanceAs (Decidable (_ ∧ _))

section Entries

variable {mints : List (K × Mint K)} {accounts : List (K × TokenAccount K)} {k m : K}

theorem mem_of_lookup {β : Type} {l : List (K × β)} {b : β} (h : l.lookup k = some b) :
    (k, b) ∈ l := by
  obtain ⟨before, after, rfl, -⟩ := List.lookup_eq_some_iff.1 h
  simp

theorem mem_of_account {a : TokenAccount K}
    (h : (Ledger.ofLists mints accounts).accounts k = some a) : (k, a) ∈ accounts :=
  mem_of_lookup h

theorem mem_of_mint {x : Mint K} (h : (Ledger.ofLists mints accounts).mints k = some x) :
    (k, x) ∈ mints :=
  mem_of_lookup h

/-- By induction on the list: its first entry counts for one key and hides the others of that key.
-/
theorem sum_holdings_le (mints : List (K × Mint K)) (accounts : List (K × TokenAccount K)) (m : K)
    (d : Finset K) :
    ∑ k ∈ d, (Ledger.ofLists mints accounts).holdings m k ≤ listed m accounts := by
  induction accounts with
  | nil =>
      apply Nat.le_of_eq
      apply Finset.sum_eq_zero
      intro k _
      rfl
  | cons e rest ih =>
      obtain ⟨j, a⟩ := e
      have hentry : ∀ k, (Ledger.ofLists mints ((j, a) :: rest)).holdings m k ≤
          (if k = j then (if a.mint = m then a.amount else 0) else 0) +
            (Ledger.ofLists mints rest).holdings m k := by
        intro k
        by_cases hk : k = j
        · simp [Ledger.holdings, Ledger.ofLists, hk]
        · have hbeq : (k == j) = false := by simpa using hk
          simp [Ledger.holdings, Ledger.ofLists, List.lookup_cons, hk, hbeq]
      have hfirst : ∑ k ∈ d, (if k = j then (if a.mint = m then a.amount else 0) else 0) ≤
          if a.mint = m then a.amount else 0 := by
        rw [Finset.sum_ite_eq' d j]
        split
        · exact Nat.le_refl _
        · exact Nat.zero_le _
      have hsum := Finset.sum_le_sum fun k (_ : k ∈ d) => hentry k
      rw [Finset.sum_add_distrib] at hsum
      simp only [listed]
      omega

theorem listed_eq_zero (h : ∀ e ∈ accounts, e.2.mint ≠ m) : listed m accounts = 0 := by
  induction accounts with
  | nil => rfl
  | cons e rest ih =>
      have hrest := ih fun e' he' => h e' (List.mem_cons_of_mem e he')
      simp [listed, h e List.mem_cons_self, hrest]

theorem conserved_ofLists (h : Covered mints accounts) :
    (Ledger.ofLists mints accounts).Conserved := by
  intro m
  constructor
  · cases hx : (Ledger.ofLists mints accounts).mints m with
    | none => simp [Ledger.supply, hx]
    | some x =>
        rw [Ledger.supply_of_some hx]
        exact h.1 _ (mem_of_mint hx)
  · intro d
    apply (sum_holdings_le mints accounts m d).trans
    by_cases hm : ∃ e ∈ accounts, e.2.mint = m
    · obtain ⟨e, he, rfl⟩ := hm
      exact h.2 e he
    · rw [listed_eq_zero fun e he heq => hm ⟨e, he, heq⟩]
      exact Nat.zero_le _

end Entries

end TokenLedger
