import AdraLrt.Exit
import AdraLrt.Refinement

/-!
# Declared privileges

A transaction with a single instruction gives each account the privileges that the accounts struct
of the instruction declares, which is what the generated client emits. They are enough for every
check on the account list (`Call.Accepted.declared`) and for every call of `withdraw`,
`withdraw_delegated_stake`, `delegate` and `undelegate`. `Deposit` does not declare
`signer_input_token_vault` as `mut`, although the handler transfers from it, so a deposit by itself
is refused unless that account is declared under another name.
-/

set_option autoImplicit false

namespace AdraLrt

open TokenLedger Checked

/-! ## The checks -/

section Checks

variable {p q : Privileges Pubkey} {s start : State}

theorem initIfNeeded_declared {payer k mint authority tokenProgram : Pubkey}
    {v : Loaded (TokenAccount Pubkey)}
    (h : initIfNeeded p payer k mint authority tokenProgram s = .ok (v, start))
    (hw : q.writable k = true) (hpayer : q.writable payer = true) :
    initIfNeeded q payer k mint authority tokenProgram s = .ok (v, start) := by
  obtain ⟨-, hk, hv, hold | ⟨ha, hm, hx, hfresh, hs, -, hr⟩⟩ := (initIfNeeded_eq_ok_iff ..).1 h
  · exact (initIfNeeded_eq_ok_iff ..).2 ⟨hw, hk, hv, Or.inl hold⟩
  · exact (initIfNeeded_eq_ok_iff ..).2
      ⟨hw, hk, hv, Or.inr ⟨ha, hm, hx, hfresh, hs, hpayer, hr⟩⟩

theorem Deposit.tryAccounts_declared {a : DepositAccounts}
    (h : ∃ x, Deposit.tryAccounts p a s = .ok x) :
    ∃ x, Deposit.tryAccounts (transaction a.metas) a s = .ok x := by
  obtain ⟨⟨self, start⟩, h⟩ := h
  obtain ⟨im, ui, vault, om, r, created, hacc, hinit, -⟩ := (tryAccounts_eq_ok_iff ..).1 h
  have hcreated := initIfNeeded_declared (q := transaction a.metas) hinit
    (by simp [transaction, DepositAccounts.metas, accountMeta])
    (by simp [transaction, DepositAccounts.metas, accountMeta])
  refine ⟨⟨_, start⟩, (tryAccounts_eq_ok_iff ..).2 ⟨im, ui, vault, om, r, created, ?_, hcreated,
    rfl⟩⟩
  -- what does not concern privileges stays as it was
  exact { hacc with
    signer := by simp [transaction, DepositAccounts.metas, accountMeta]
    signer_mut := by simp [transaction, DepositAccounts.metas, accountMeta]
    pool_mut := by simp [transaction, DepositAccounts.metas, accountMeta]
    poolInput_mut := by simp [transaction, DepositAccounts.metas, accountMeta]
    outputMint_mut := by simp [transaction, DepositAccounts.metas, accountMeta] }

theorem Withdraw.tryAccounts_declared {a : WithdrawAccounts}
    (h : ∃ x, Withdraw.tryAccounts p a s = .ok x) :
    ∃ x, Withdraw.tryAccounts (transaction a.metas) a s = .ok x := by
  obtain ⟨self, h⟩ := h
  obtain ⟨im, ui, vault, om, uo, r, hacc, -⟩ := (tryAccounts_eq_ok_iff ..).1 h
  refine ⟨_, (tryAccounts_eq_ok_iff ..).2 ⟨im, ui, vault, om, uo, r, ?_, rfl⟩⟩
  exact { hacc with
    signer := by simp [transaction, WithdrawAccounts.metas, accountMeta]
    signer_mut := by simp [transaction, WithdrawAccounts.metas, accountMeta]
    pool_mut := by simp [transaction, WithdrawAccounts.metas, accountMeta]
    inputMint_mut := by simp [transaction, WithdrawAccounts.metas, accountMeta]
    signerInput_mut := by simp [transaction, WithdrawAccounts.metas, accountMeta]
    poolInput_mut := by simp [transaction, WithdrawAccounts.metas, accountMeta]
    outputMint_mut := by simp [transaction, WithdrawAccounts.metas, accountMeta]
    signerOutput_mut := by simp [transaction, WithdrawAccounts.metas, accountMeta] }

theorem WithdrawStake.tryAccounts_declared {a : WithdrawStakeAccounts}
    (h : ∃ x, WithdrawStake.tryAccounts p a s = .ok x) :
    ∃ x, WithdrawStake.tryAccounts (transaction a.metas) a s = .ok x := by
  obtain ⟨⟨self, start⟩, h⟩ := h
  obtain ⟨im, vault, om, uo, r, am, av, pa, created, hacc, hinit, -⟩ :=
    (tryAccounts_eq_ok_iff ..).1 h
  have hcreated := initIfNeeded_declared (q := transaction a.metas) hinit
    (by simp [transaction, WithdrawStakeAccounts.metas, accountMeta])
    (by simp [transaction, WithdrawStakeAccounts.metas, accountMeta])
  refine ⟨⟨_, start⟩, (tryAccounts_eq_ok_iff ..).2 ⟨im, vault, om, uo, r, am, av, pa, created, ?_,
    hcreated, rfl⟩⟩
  exact { hacc with
    signer := by simp [transaction, WithdrawStakeAccounts.metas, accountMeta]
    signer_mut := by simp [transaction, WithdrawStakeAccounts.metas, accountMeta]
    pool_mut := by simp [transaction, WithdrawStakeAccounts.metas, accountMeta]
    inputMint_mut := by simp [transaction, WithdrawStakeAccounts.metas, accountMeta]
    poolInput_mut := by simp [transaction, WithdrawStakeAccounts.metas, accountMeta]
    outputMint_mut := by simp [transaction, WithdrawStakeAccounts.metas, accountMeta]
    signerOutput_mut := by simp [transaction, WithdrawStakeAccounts.metas, accountMeta]
    avs_mut := by simp [transaction, WithdrawStakeAccounts.metas, accountMeta]
    avsMint_mut := by simp [transaction, WithdrawStakeAccounts.metas, accountMeta]
    avsInput_mut := by simp [transaction, WithdrawStakeAccounts.metas, accountMeta]
    poolAvs_mut := by simp [transaction, WithdrawStakeAccounts.metas, accountMeta] }

theorem Delegate.tryAccounts_declared {a : DelegateAccounts}
    (h : ∃ x, Delegate.tryAccounts p a s = .ok x) :
    ∃ x, Delegate.tryAccounts (transaction a.metas) a s = .ok x := by
  obtain ⟨⟨self, start⟩, h⟩ := h
  obtain ⟨am, av, im, vault, r, created, hacc, hinit, -⟩ := (tryAccounts_eq_ok_iff ..).1 h
  have hcreated := initIfNeeded_declared (q := transaction a.metas) hinit
    (by simp [transaction, DelegateAccounts.metas, accountMeta])
    (by simp [transaction, DelegateAccounts.metas, accountMeta])
  refine ⟨⟨_, start⟩, (tryAccounts_eq_ok_iff ..).2 ⟨am, av, im, vault, r, created, ?_, hcreated,
    rfl⟩⟩
  exact { hacc with
    signer := by simp [transaction, DelegateAccounts.metas, accountMeta]
    signer_mut := by simp [transaction, DelegateAccounts.metas, accountMeta]
    pool_mut := by simp [transaction, DelegateAccounts.metas, accountMeta]
    avs_mut := by simp [transaction, DelegateAccounts.metas, accountMeta]
    avsMint_mut := by simp [transaction, DelegateAccounts.metas, accountMeta]
    avsInput_mut := by simp [transaction, DelegateAccounts.metas, accountMeta]
    inputMint_mut := by simp [transaction, DelegateAccounts.metas, accountMeta]
    poolInput_mut := by simp [transaction, DelegateAccounts.metas, accountMeta] }

/-- The checks ask for declared privileges only. -/
theorem Call.Accepted.declared {c : Call} (h : c.Accepted p s) :
    c.Accepted (transaction c.metas) s := by
  cases c with
  | initializePool a limit => cases h
  | transferDelegateAuthority a => cases h
  | updateMintLimit a limit => cases h
  | deposit a amount => exact Deposit.tryAccounts_declared h
  | withdraw a amount => exact Withdraw.tryAccounts_declared h
  | withdrawDelegatedStake a amount => exact WithdrawStake.tryAccounts_declared h
  | delegate a amount => exact Delegate.tryAccounts_declared h
  | undelegate a amount => exact Delegate.tryAccounts_declared h

end Checks

/-! ## The calls -/

section Calls

variable {rt : Runtime} {s s' : State} {a : DepositAccounts} {amount : UInt64}

/-- An account that a deposit declares writable is the signer, a mint, the pool, its vault, or the
signer's account for the output tokens. -/
theorem DepositAccounts.writable_iff (k : Pubkey) :
    (transaction a.metas).writable k = true ↔
      k = a.signer ∨ k = a.poolInputTokenVault ∨ k = a.outputTokenMint ∨
        k = a.signerOutputTokenVault ∨ k = a.pool := by
  simp [transaction, DepositAccounts.metas, accountMeta, readonlyMeta, eq_comm (b := k)]

/-- A deposit by itself succeeds only when the signer's account for the input tokens is that for the
output tokens. -/
theorem mints_eq_of_declared (hl : LedgerSound s.ledger) (hne : a.signer ≠ a.pool)
    (h : rt.execute (transaction a.metas) (.deposit a amount) s = .ok s') :
    a.inputTokenMint = a.outputTokenMint := by
  obtain ⟨d, -⟩ := (execute_deposit_iff ..).1 h
  have hacc := d.accepted
  have hisPool : a.pool.isPool = true := isPool_of_eq hacc.pool_eq
  have hw : (transaction a.metas).writable a.signerInputTokenVault = true :=
    writable_of_metas ((exec_eq_ok_iff ..).1 d.stake_eq).1 (by simp [TokenIx.metas])
  rw [DepositAccounts.writable_iff, hacc.signerInput_key] at hw
  -- no other declared account can have the address of the signer's input account
  rcases hw with hw | hw | hw | hw | hw
  · exact (associated_ne_self _ _ _ hw).elim
  · rw [hacc.poolInput_key, getAssociatedTokenAddress_inj] at hw
    exact (hne hw.1).elim
  · have hmint := hl.no_mint a.signer a.tokenProgram a.inputTokenMint
    rw [hw, hacc.outputMint_some] at hmint
    cases hmint
  · rw [((initIfNeeded_eq_ok_iff ..).1 d.init_eq).2.1, getAssociatedTokenAddress_inj] at hw
    exact hw.2.2
  · rw [← hw] at hisPool
    cases hisPool

end Calls

namespace Sample

/-- The accounts of a deposit of the user. -/
def saving : DepositAccounts := .derived user tokenProgram pool (record 1000)

end Sample

end AdraLrt
