import AdraLrt.Failure
import AdraLrt.Redemption
import AdraLrt.MintLimit
import AdraLrt.Sample
import AdraLrt.TokenLedger.Frame

/-!
# The handlers as steps of a plain ledger

A handler works on copies that deserialization made, calls other programs that change the ledger
behind these copies, and tests a copy again after reloading it. None of this can be seen from
outside: on an accepted account list, with the privileges that its calls need, an instruction
succeeds exactly when a test on the plain balances, the supply and the pool record before it does
(`Call.Covered`), and then it changes what `Call.debited` and the like say and nothing else.

The tokens of the instruction are on the legacy token program, its accounts are not frozen and the
AVS serves every exchange that can be carried out.
-/

set_option autoImplicit false

namespace AdraLrt

open TokenLedger Checked

/-! ## The plain step -/

/-- The state with `key` for the delegate authority of the pool. -/
def State.authorize (s : State) (pool key : Pubkey) : State :=
  match s.pools pool with
  | some r => s.setPool pool { r with delegateAuthority := key }
  | none => s

theorem State.authorize_of_some {s : State} {pool key : Pubkey} {r : LRTPool}
    (h : s.pools pool = some r) :
    s.authorize pool key = s.setPool pool { r with delegateAuthority := key } := by
  simp [State.authorize, h]

theorem State.authorize_self {s : State} {pool : Pubkey} {r : LRTPool} (h : s.pools pool = some r) :
    s.authorize pool r.delegateAuthority = s := by
  rw [State.authorize_of_some h]
  exact State.setPool_self h

namespace Call

/-- The account list passes the checks of the instruction. Whether the signer is the delegate
authority is left out here and asked in `Covered`. -/
def Accepted (p : Privileges Pubkey) (s : State) : Call → Prop
  | deposit a _ => ∃ x, Deposit.tryAccounts p a s = .ok x
  | withdraw a _ => ∃ x, Withdraw.tryAccounts p a s = .ok x
  | withdrawDelegatedStake a _ => ∃ x, WithdrawStake.tryAccounts p a s = .ok x
  | delegate a _ => ∃ x, Delegate.tryAccounts p a (s.authorize a.pool a.signer) = .ok x
  | undelegate a _ => ∃ x, Delegate.tryAccounts p a (s.authorize a.pool a.signer) = .ok x
  | _ => False

/-- The privileges that the calls of the instruction need: those it declares, and for a deposit also
the signer's input account writable. -/
def demands : Call → List (AccountMeta Pubkey)
  | deposit a _ => accountMeta a.signerInputTokenVault false :: a.metas
  | c => c.metas

/-- The accounts of the call to an AVS program, and the program. -/
def avsCall : Call → Option (AvsAccounts × Pubkey)
  | withdrawDelegatedStake a _ => some (a.avsAccounts, a.avsProgram)
  | delegate a _ => some (a.avsAccounts, a.avsProgram)
  | undelegate a _ => some (a.avsAccounts, a.avsProgram)
  | _ => none

/-- The test that the plain ledger makes. -/
def Covered (s : State) : Call → Prop
  | deposit a amount =>
      amount.toNat ≤ s.ledger.spendable a.signerInputTokenVault a.signer ∧
        s.ledger.supply a.outputTokenMint + amount.toNat ≤ min (limitOf a.pool s) u64Max
  | withdraw a amount =>
      amount.toNat ≤ s.ledger.spendable a.signerOutputTokenVault a.signer ∧
        amount.toNat ≤ s.ledger.balance a.poolInputTokenVault
  | withdrawDelegatedStake a amount =>
      amount.toNat ≤ s.ledger.spendable a.signerOutputTokenVault a.signer ∧
        amount.toNat ≤ s.ledger.balance a.poolAvsTokenVault
  | delegate a amount =>
      (s.pools a.pool).map LRTPool.delegateAuthority = some a.signer ∧
        amount.toNat ≤ s.ledger.balance a.poolInputTokenVault
  | undelegate a amount =>
      (s.pools a.pool).map LRTPool.delegateAuthority = some a.signer ∧
        amount.toNat ≤ s.ledger.balance a.poolAvsTokenVault
  | _ => False

/-- The token accounts that the instruction may change. -/
def accounts : Call → List Pubkey
  | deposit a _ => [a.signerInputTokenVault, a.poolInputTokenVault, a.signerOutputTokenVault]
  | withdraw a _ => [a.signerInputTokenVault, a.poolInputTokenVault, a.signerOutputTokenVault]
  | withdrawDelegatedStake a _ => [a.signerInputTokenVault, a.poolInputTokenVault,
      a.signerOutputTokenVault, a.avsInputTokenVault, a.poolAvsTokenVault]
  | delegate a _ => [a.avsInputTokenVault, a.poolInputTokenVault, a.poolAvsTokenVault]
  | undelegate a _ => [a.avsInputTokenVault, a.poolInputTokenVault, a.poolAvsTokenVault]
  | _ => []

/-- The mints of the tokens that it handles. -/
def tokens : Call → List Pubkey
  | deposit a _ => [a.inputTokenMint, a.outputTokenMint]
  | withdraw a _ => [a.inputTokenMint, a.outputTokenMint]
  | withdrawDelegatedStake a _ => [a.inputTokenMint, a.outputTokenMint, a.avsTokenMint]
  | delegate a _ => [a.inputTokenMint, a.avsTokenMint]
  | undelegate a _ => [a.inputTokenMint, a.avsTokenMint]
  | _ => []

/-- Who pays into the pool or is paid by it. -/
def user : Call → Option Pubkey
  | deposit a _ => some a.signer
  | withdraw a _ => some a.signer
  | withdrawDelegatedStake a _ => some a.signer
  | _ => none

/-- The mints that it may change. -/
def mints : Call → List Pubkey
  | deposit a _ => [a.outputTokenMint]
  | withdraw a _ => [a.outputTokenMint]
  | withdrawDelegatedStake a _ => [a.outputTokenMint, a.avsTokenMint]
  | delegate a _ => [a.avsTokenMint]
  | undelegate a _ => [a.avsTokenMint]
  | _ => []

end Call

/-- The step of the plain ledger: the given amounts leave and enter the given accounts, the given
amounts are minted and burned, and everything else stays as it is. On an account that an allowance
was used up for, the allowance goes too. -/
structure PlainStep (c : Call) (s s' : State) : Prop where
  pools : s'.pools = s.pools
  balance : ∀ k, s'.ledger.balance k + c.debited k = s.ledger.balance k + c.credited k
  supply : ∀ m, s'.ledger.supply m + c.burned m = s.ledger.supply m + c.minted m
  terms : ∀ k x, s.ledger.accounts k = some x →
    ∃ y, s'.ledger.accounts k = some y ∧ SameTerms x y
  mintTerms : ∀ m x, s.ledger.mints m = some x → ∃ n, s'.ledger.mints m = some (x.withSupply n)
  account : ∀ k, k ∉ c.accounts → s'.ledger.accounts k = s.ledger.accounts k
  mint : ∀ m, m ∉ c.mints → s'.ledger.mints m = s.ledger.mints m

/-! ## The frame -/

section Frame

variable {avss : Set Pubkey} {avsMints : Finset Pubkey} {rt : Runtime} {p : Privileges Pubkey}
  {c : Call} {s s' : State}

theorem initIfNeeded_account_of_ne {payer k mint authority tokenProgram j : Pubkey}
    {v : Loaded (TokenAccount Pubkey)}
    (h : initIfNeeded p payer k mint authority tokenProgram s = .ok (v, s')) (hj : j ≠ k) :
    s'.ledger.accounts j = s.ledger.accounts j := by
  rcases ((initIfNeeded_eq_ok_iff ..).1 h).2.2.2 with ⟨rfl, -⟩ | ⟨-, -, -, -, rfl, -⟩
  · rfl
  · simp [hj]

/-- An exchange touches three token accounts. -/
theorem exchange_account {x : AvsAccounts} {q : Privileges Pubkey} {l l' : Ledger Pubkey}
    {name : InstructionName} {amount : Nat} (h : execAll q (x.exchange amount name) l = .ok l')
    {k : Pubkey} (hvault : k ≠ x.poolInputTokenVault) (havs : k ≠ x.avsInputTokenVault)
    (hpoolAvs : k ≠ x.poolAvsTokenVault) : l'.accounts k = l.accounts k := by
  apply execAll_account_of_notMem (exchange_movesFunds _ _ _) h
  cases name <;> simp [AvsAccounts.exchange, TokenIx.accounts, hvault, havs, hpoolAvs]

/-- It touches one mint. -/
theorem exchange_mint {x : AvsAccounts} {q : Privileges Pubkey} {l l' : Ledger Pubkey}
    {name : InstructionName} {amount : Nat} (h : execAll q (x.exchange amount name) l = .ok l')
    {m : Pubkey} (hm : m ≠ x.avsTokenMint) : l'.mints m = l.mints m := by
  apply execAll_mint_of_notMem (exchange_movesFunds _ _ _) h
  cases name <;> simp [AvsAccounts.exchange, TokenIx.supplies, hm]

theorem DelegateRun.exchanged_account {a : DelegateAccounts} {name : InstructionName}
    {amount : UInt64} (d : DelegateRun rt p a name amount s)
    (hh : HonestPrograms avss avsMints rt.programs) {k : Pubkey}
    (hk : k ∉ [a.avsInputTokenVault, a.poolInputTokenVault, a.poolAvsTokenVault]) :
    d.exchanged.accounts k = s.ledger.accounts k := by
  simp only [List.mem_cons, List.not_mem_nil, or_false, not_or] at hk
  obtain ⟨havs, hvault, hpoolAvs⟩ := hk
  obtain ⟨-, -, -, hex⟩ := hh _ _ _ _ _ _ _ d.avs
  have hexchange := exchange_account hex hvault havs hpoolAvs
  exact hexchange.trans (initIfNeeded_account_of_ne d.init_eq hpoolAvs)

theorem DelegateRun.exchanged_mint {a : DelegateAccounts} {name : InstructionName}
    {amount : UInt64} (d : DelegateRun rt p a name amount s)
    (hh : HonestPrograms avss avsMints rt.programs) {m : Pubkey} (hm : m ∉ [a.avsTokenMint]) :
    d.exchanged.mints m = s.ledger.mints m := by
  obtain ⟨-, -, -, hex⟩ := hh _ _ _ _ _ _ _ d.avs
  have hexchange := exchange_mint hex (List.mem_singleton.not.1 hm)
  exact hexchange.trans (congrFun (initIfNeeded_mints d.init_eq) m)

/-- Accounts that the instruction does not list as its own are not touched. -/
theorem execute_account (h : rt.execute p c s = .ok s')
    (hh : HonestPrograms avss avsMints rt.programs)
    {k : Pubkey} (hk : k ∉ c.accounts) : s'.ledger.accounts k = s.ledger.accounts k := by
  cases c with
  | initializePool a limit =>
      obtain ⟨-, -, -, -, rfl⟩ := (initializePool_eq_ok_iff ..).1 h
      rfl
  | transferDelegateAuthority a =>
      obtain ⟨-, -, -, -, -, -, -, rfl⟩ := (transferDelegateAuthority_eq_ok_iff ..).1 h
      rfl
  | updateMintLimit a limit =>
      obtain ⟨-, -, -, -, -, -, -, rfl⟩ := (updateMintLimit_eq_ok_iff ..).1 h
      rfl
  | deposit a amount =>
      obtain ⟨d, rfl⟩ := (execute_deposit_iff ..).1 h
      simp only [Call.accounts, List.mem_cons, List.not_mem_nil, or_false, not_or] at hk
      obtain ⟨hsource, hvault, hdestination⟩ := hk
      have h₀ := initIfNeeded_account_of_ne d.init_eq hdestination
      have h₁ := process_account_of_notMem (k := k) rfl ((exec_eq_ok_iff ..).1 d.stake_eq).2
        (by simp [TokenIx.accounts, hsource, hvault])
      have h₂ := process_account_of_notMem (k := k) rfl ((exec_eq_ok_iff ..).1 d.mint_eq).2
        (by simp [TokenIx.accounts, hdestination])
      exact h₂.trans (h₁.trans h₀)
  | withdraw a amount =>
      obtain ⟨d, rfl⟩ := (execute_withdraw_iff ..).1 h
      simp only [Call.accounts, List.mem_cons, List.not_mem_nil, or_false, not_or] at hk
      obtain ⟨hdestination, hvault, hsource⟩ := hk
      have h₁ := process_account_of_notMem (k := k) rfl ((exec_eq_ok_iff ..).1 d.burn_eq).2
        (by simp [TokenIx.accounts, hsource])
      have h₂ := process_account_of_notMem (k := k) rfl ((exec_eq_ok_iff ..).1 d.pay_eq).2
        (by simp [TokenIx.accounts, hdestination, hvault])
      exact h₂.trans h₁
  | withdrawDelegatedStake a amount =>
      obtain ⟨d, rfl⟩ := (execute_withdrawDelegatedStake_iff ..).1 h
      obtain ⟨-, -, -, hex⟩ := hh _ _ _ _ _ _ _ d.avs
      simp only [Call.accounts, List.mem_cons, List.not_mem_nil, or_false, not_or] at hk
      obtain ⟨hdestination, hvault, hsource, havs, hpoolAvs⟩ := hk
      have h₀ := initIfNeeded_account_of_ne d.init_eq hdestination
      have h₁ := process_account_of_notMem (k := k) rfl ((exec_eq_ok_iff ..).1 d.burn_eq).2
        (by simp [TokenIx.accounts, hsource])
      have h₂ := exchange_account hex hvault havs hpoolAvs
      have h₃ := process_account_of_notMem (k := k) rfl ((exec_eq_ok_iff ..).1 d.pay_eq).2
        (by simp [TokenIx.accounts, hdestination, hvault])
      exact h₃.trans (h₂.trans (h₁.trans h₀))
  | delegate a amount =>
      obtain ⟨d, -, rfl⟩ := (execute_delegate_iff ..).1 h
      exact d.exchanged_account hh hk
  | undelegate a amount =>
      obtain ⟨d, -, rfl⟩ := (execute_undelegate_iff ..).1 h
      exact d.exchanged_account hh hk

/-- The same for mints. -/
theorem execute_mint (h : rt.execute p c s = .ok s') (hh : HonestPrograms avss avsMints rt.programs)
    {m : Pubkey} (hm : m ∉ c.mints) : s'.ledger.mints m = s.ledger.mints m := by
  cases c with
  | initializePool a limit =>
      obtain ⟨-, -, -, -, rfl⟩ := (initializePool_eq_ok_iff ..).1 h
      rfl
  | transferDelegateAuthority a =>
      obtain ⟨-, -, -, -, -, -, -, rfl⟩ := (transferDelegateAuthority_eq_ok_iff ..).1 h
      rfl
  | updateMintLimit a limit =>
      obtain ⟨-, -, -, -, -, -, -, rfl⟩ := (updateMintLimit_eq_ok_iff ..).1 h
      rfl
  | deposit a amount =>
      obtain ⟨d, rfl⟩ := (execute_deposit_iff ..).1 h
      have h₀ := congrFun (initIfNeeded_mints d.init_eq) m
      have h₁ := process_mint_of_notMem (k := m) rfl ((exec_eq_ok_iff ..).1 d.stake_eq).2
        (by simp [TokenIx.supplies])
      have h₂ := process_mint_of_notMem (k := m) rfl ((exec_eq_ok_iff ..).1 d.mint_eq).2 hm
      exact h₂.trans (h₁.trans h₀)
  | withdraw a amount =>
      obtain ⟨d, rfl⟩ := (execute_withdraw_iff ..).1 h
      have h₁ := process_mint_of_notMem (k := m) rfl ((exec_eq_ok_iff ..).1 d.burn_eq).2 hm
      have h₂ := process_mint_of_notMem (k := m) rfl ((exec_eq_ok_iff ..).1 d.pay_eq).2
        (by simp [TokenIx.supplies])
      exact h₂.trans h₁
  | withdrawDelegatedStake a amount =>
      obtain ⟨d, rfl⟩ := (execute_withdrawDelegatedStake_iff ..).1 h
      obtain ⟨-, -, -, hex⟩ := hh _ _ _ _ _ _ _ d.avs
      simp only [Call.mints, List.mem_cons, List.not_mem_nil, or_false, not_or] at hm
      obtain ⟨hout, havs⟩ := hm
      have h₀ := congrFun (initIfNeeded_mints d.init_eq) m
      have h₁ := process_mint_of_notMem (k := m) rfl ((exec_eq_ok_iff ..).1 d.burn_eq).2
        (by simp [TokenIx.supplies, hout])
      have h₂ := exchange_mint hex havs
      have h₃ := process_mint_of_notMem (k := m) rfl ((exec_eq_ok_iff ..).1 d.pay_eq).2
        (by simp [TokenIx.supplies])
      exact h₃.trans (h₂.trans (h₁.trans h₀))
  | delegate a amount =>
      obtain ⟨d, -, rfl⟩ := (execute_delegate_iff ..).1 h
      exact d.exchanged_mint hh hm
  | undelegate a amount =>
      obtain ⟨d, -, rfl⟩ := (execute_undelegate_iff ..).1 h
      exact d.exchanged_mint hh hm

/-- A successful instruction that sets no record is a step of the plain ledger. -/
theorem execute_plainStep (h : rt.execute p c s = .ok s')
    (hh : HonestPrograms avss avsMints rt.programs) (hf : c.FeeFree s.ledger)
    (hc : c.setsRecord = false) : PlainStep c s s' where
  pools := by
    cases execute_pools h with
    | kept _ _ hpools => exact hpools
    | created a limit hpool hnone hs' => cases hc
    | transferred a r hsig hr hauth hs' => cases hc
    | limitSet a limit r hsig hr hauth hs' => cases hc
  balance := execute_balance h hh hf
  supply := execute_supply h hh
  terms k x hx := by
    obtain ⟨start, hmoved, hstart | ⟨_, _, _, _, _, _, hinit⟩⟩ := execute_fundsMoved h hh.fundsOnly
    · exact hmoved.some_account k x (hstart ▸ hx)
    · exact hmoved.some_account k x (initIfNeeded_account_of_some hinit hx)
  mintTerms m x hx := by
    obtain ⟨start, hmoved, hstart | ⟨_, _, _, _, _, _, hinit⟩⟩ := execute_fundsMoved h hh.fundsOnly
    · exact hmoved.some_mint m x (hstart ▸ hx)
    · exact hmoved.some_mint m x ((congrFun (initIfNeeded_mints hinit) m).trans hx)
  account _ hk := execute_account h hh hk
  mint _ hm := execute_mint h hh hm

end Frame

/-! ## What success takes -/

section Covered

variable {rt : Runtime} {p : Privileges Pubkey} {c : Call} {s s' : State}

/-- What an instruction succeeded with was there before it. -/
theorem execute_covered (h : rt.execute p c s = .ok s') (hc : c.setsRecord = false) :
    c.Covered s := by
  cases c with
  | initializePool a limit => cases hc
  | transferDelegateAuthority a => cases hc
  | updateMintLimit a limit => cases hc
  | deposit a amount =>
      obtain ⟨-, hsupply, hlimit, -⟩ := deposit_supply h
      obtain ⟨d, -⟩ := (execute_deposit_iff ..).1 h
      have hacc := d.accepted
      have hui := initIfNeeded_account_of_some d.init_eq hacc.signerInput_some
      have hspend := le_spendable_of_transfer d.stake_eq hui hacc.signerInput_owner
      rw [Ledger.spendable_of_some hui, ← Ledger.spendable_of_some hacc.signerInput_some] at hspend
      -- the limit is a 64-bit number, so the supply cannot overflow below it
      have hmax : limitOf a.pool s ≤ u64Max := by
        rw [limitOf_of_some hacc.pool_some]
        exact Nat.le_of_lt_succ (UInt64.toNat_lt _)
      refine ⟨hspend, ?_⟩
      omega
  | withdraw a amount =>
      obtain ⟨d, -⟩ := (execute_withdraw_iff ..).1 h
      have hacc := d.accepted
      have hspend := le_spendable_of_burn d.burn_eq hacc.signerOutput_some hacc.signerOutput_owner
      -- the guard reads the vault after the burn, which can only have taken from it
      have hburned := process_balance_of_free (by trivial) ((exec_eq_ok_iff ..).1 d.burn_eq).2
        a.poolInputTokenVault
      have hguard : amount.toNat ≤ d.vault.amount := d.guard
      rw [Ledger.balance_of_some d.vault_some] at hburned
      refine ⟨hspend, ?_⟩
      simp only [TokenIx.credited] at hburned
      omega
  | withdrawDelegatedStake a amount =>
      obtain ⟨d, -⟩ := (execute_withdrawDelegatedStake_iff ..).1 h
      have hacc := d.accepted
      have huo := initIfNeeded_account_of_some d.init_eq hacc.signerOutput_some
      have hspend := le_spendable_of_burn d.burn_eq huo hacc.signerOutput_owner
      rw [Ledger.spendable_of_some huo, ← Ledger.spendable_of_some hacc.signerOutput_some] at hspend
      have hburned := process_balance_of_free (by trivial) ((exec_eq_ok_iff ..).1 d.burn_eq).2
        a.poolAvsTokenVault
      have hguard : amount.toNat ≤ d.poolAvsNow.amount := d.avsGuard
      rw [Ledger.balance_of_some d.poolAvsNow_some, initIfNeeded_balance d.init_eq] at hburned
      refine ⟨hspend, ?_⟩
      simp only [TokenIx.credited] at hburned
      omega
  | delegate a amount =>
      obtain ⟨d, hguard, -⟩ := (execute_delegate_iff ..).1 h
      refine ⟨by simp [d.accepted.pool_some, d.accepted.authority], ?_⟩
      rw [Ledger.balance_of_some d.accepted.poolInput_some]
      exact hguard
  | undelegate a amount =>
      obtain ⟨d, hguard, -⟩ := (execute_undelegate_iff ..).1 h
      refine ⟨by simp [d.accepted.pool_some, d.accepted.authority], ?_⟩
      rw [← initIfNeeded_balance d.init_eq, Ledger.balance_of_some (initIfNeeded_account d.init_eq)]
      exact hguard

end Covered

/-! ## An AVS that serves -/

/-- The AVS of a call is honest: its program derives its address and carries the exchange out
whenever the token program lets it, and its tokens are its own and covered by its vault, which is in
its hands. -/
structure HonestAvs (avsMints : Finset Pubkey) (programs : Programs) (x : AvsAccounts)
    (avsProgram : Pubkey) (l : Ledger Pubkey) : Prop where
  controls : avsProgram.controls x.avs = true
  serves : ∀ name amount (t : State) l', name = .delegate ∨ name = .undelegate →
    execAll (x.privileges avsProgram) (x.exchange amount.toNat name) t.ledger = .ok l' →
    ∃ cs, AvsRun programs x avsProgram name amount t l' cs
  mint_mem : x.avsTokenMint ∈ avsMints
  inputMint_notMem : x.inputTokenMint ∉ avsMints
  covered : l.supply x.avsTokenMint ≤ l.balance x.avsInputTokenVault
  held : ∀ a, l.accounts x.avsInputTokenVault = some a → a.Held x.avs

section HonestAvs

variable {avsMints : Finset Pubkey} {programs : Programs} {x : AvsAccounts} {avsProgram : Pubkey}
  {l l' : Ledger Pubkey} {am im : Mint Pubkey} {av pv pa : TokenAccount Pubkey} {amount : UInt64}
  {t : State}

theorem HonestAvs.mints_ne (h : HonestAvs avsMints programs x avsProgram l) :
    x.inputTokenMint ≠ x.avsTokenMint := by
  intro heq
  exact h.inputMint_notMem (heq ▸ h.mint_mem)

theorem HonestAvs.congr (h : HonestAvs avsMints programs x avsProgram l)
    (hsupply : l'.supply x.avsTokenMint = l.supply x.avsTokenMint)
    (haccount : l'.accounts x.avsInputTokenVault = l.accounts x.avsInputTokenVault) :
    HonestAvs avsMints programs x avsProgram l' where
  controls := h.controls
  serves := h.serves
  mint_mem := h.mint_mem
  inputMint_notMem := h.inputMint_notMem
  covered := by
    rw [hsupply, Ledger.balance_congr haccount]
    exact h.covered
  held := haccount ▸ h.held

/-- It redeems what the pool holds. -/
theorem HonestAvs.exists_undelegate (h : HonestAvs avsMints programs x avsProgram t.ledger)
    (hready : x.Ready avsProgram t.ledger am im av pv pa) (hl : LedgerSound t.ledger)
    (hle : amount.toNat ≤ pa.amount) :
    ∃ cs l', AvsRun programs x avsProgram .undelegate amount t l' cs := by
  have hheld := hl.conserved.balance_le hready.poolAvs_some
  rw [hl.associated _ _ _ pa (hready.poolAvs_key ▸ hready.poolAvs_some)] at hheld
  have hcovered := h.covered
  rw [Ledger.balance_of_some hready.avsInput_some] at hcovered
  obtain ⟨l', hex⟩ := hready.exists_undelegate hl (h.held _ hready.avsInput_some) hle
    (hle.trans (hheld.trans hcovered))
  obtain ⟨cs, hrun⟩ := h.serves _ _ t l' (Or.inr rfl) hex
  exact ⟨cs, l', hrun⟩

/-- It takes in what the pool has. The supply of its tokens cannot overflow, since it stays below
that of the input tokens. -/
theorem HonestAvs.exists_delegate (h : HonestAvs avsMints programs x avsProgram t.ledger)
    (hready : x.Ready avsProgram t.ledger am im av pv pa) (hl : LedgerSound t.ledger)
    (hle : amount.toNat ≤ pv.amount) :
    ∃ cs l', AvsRun programs x avsProgram .delegate amount t l' cs := by
  have hcovered := h.covered
  rw [Ledger.balance_of_some hready.avsInput_some, Ledger.supply_of_some hready.avsMint_some]
    at hcovered
  have hav_mint := hl.associated _ _ _ av (hready.avsInput_key ▸ hready.avsInput_some)
  have hpv_mint := hl.associated _ _ _ pv (hready.poolInput_key ▸ hready.poolInput_some)
  have hsum := hl.conserved.add_le hready.apart.2.2 hready.avsInput_some hready.poolInput_some
    (hpv_mint.trans hav_mint.symm)
  have hmax := hl.conserved.supply_le av.mint
  -- the vaults of the AVS and of the pool hold the same tokens
  obtain ⟨l', hex⟩ := hready.exists_delegate hl hle (by omega)
  obtain ⟨cs, hrun⟩ := h.serves _ _ t l' (Or.inl rfl) hex
  exact ⟨cs, l', hrun⟩

/-- A registered AVS that is covered is honest. -/
theorem Registry.honestAvs {R : Registry} (hserves : R.Serves avsProgram x)
    (htp : isTokenInterface x.tokenProgram = true) (hin : x.inputTokenMint ∉ R.mints)
    (hcovered : l.supply x.avsTokenMint ≤ l.balance x.avsInputTokenVault)
    (hheld : InOwnHands R.addresses l) :
    HonestAvs R.mints R.programs x avsProgram l where
  controls := by
    obtain ⟨-, rfl, haddress, -⟩ := hserves
    rw [← haddress]
    exact Avs.controls_address _
  serves _ _ _ _ _ hex := ⟨_, Registry.avsRun_of_serves hserves htp hex⟩
  mint_mem := hserves.1
  inputMint_notMem := hin
  covered := hcovered
  held a ha := by
    obtain ⟨hmem, -, haddress, -, -, hvault⟩ := hserves
    rw [← hvault] at ha
    exact haddress ▸ hheld _ _ _ a (Registry.address_mem hmem) ha

end HonestAvs

/-! ## What success needs -/

/-- The setting: the ledger is sound, the tokens of the instruction are on the legacy token program
and its accounts are not frozen, the AVS is honest, and the user is neither a pool nor the AVS. -/
structure Setting (avsMints : Finset Pubkey) (programs : Programs) (p : Privileges Pubkey)
    (c : Call) (s : State) : Prop where
  ledger : LedgerSound s.ledger
  legacy : ∀ m ∈ c.tokens, ∀ x, s.ledger.mints m = some x → x.program = .program .token
  thawed : ∀ k ∈ c.accounts, ∀ a, s.ledger.accounts k = some a → a.frozen = false
  user : ∀ u, c.user = some u → u.isPool = false ∧
    ∀ x avsProgram, c.avsCall = some (x, avsProgram) → u ≠ x.avs
  honest : HonestPrograms Set.univ avsMints programs
  avs : ∀ x avsProgram, c.avsCall = some (x, avsProgram) →
    HonestAvs avsMints programs x avsProgram s.ledger

section Enabled

variable {avsMints : Finset Pubkey} {rt : Runtime} {p : Privileges Pubkey} {c : Call}
  {s start : State} {amount : UInt64}

theorem Setting.noFee (h : Setting avsMints rt.programs p c s) {m : Pubkey} (hm : m ∈ c.tokens)
    {x : Mint Pubkey} (hx : s.ledger.mints m = some x) : x.transferFee = none :=
  h.ledger.legacy m x hx (h.legacy m hm x hx)

theorem Setting.feeFree (h : Setting avsMints rt.programs p c s) : c.FeeFree s.ledger := by
  intro m hm x hx
  refine h.noFee ?_ hx
  cases c with
  | deposit a amount => cases hm; simp [Call.tokens]
  | withdraw a amount => cases hm; simp [Call.tokens]
  | withdrawDelegatedStake a amount => cases hm; simp [Call.tokens]
  | _ => cases hm

theorem initIfNeeded_thawed {payer k mint authority tokenProgram : Pubkey}
    {v : Loaded (TokenAccount Pubkey)}
    (ht : ∀ a, s.ledger.accounts k = some a → a.frozen = false)
    (h : initIfNeeded p payer k mint authority tokenProgram s = .ok (v, start)) :
    v.account.frozen = false := by
  rcases ((initIfNeeded_eq_ok_iff ..).1 h).2.2.2 with ⟨-, hv, -⟩ | ⟨-, -, -, hv, -⟩
  · exact ht _ hv
  · rw [hv]
    rfl

/-- The accounts that a forced exit hands over are in place. -/
theorem WithdrawStake.Accepted.ready {a : WithdrawStakeAccounts} {im om avsMint : Mint Pubkey}
    {vault uo avsInput poolAvs : TokenAccount Pubkey} {r : LRTPool}
    {created : Loaded (TokenAccount Pubkey)}
    (hacc : WithdrawStake.Accepted p a s im vault om uo r avsMint avsInput poolAvs)
    (hinit : initIfNeeded p a.signer a.signerInputTokenVault a.inputTokenMint a.signer
      a.tokenProgram s = .ok (created, start))
    (h : Setting avsMints rt.programs p (.withdrawDelegatedStake a amount) s) :
    a.avsAccounts.Ready a.avsProgram start.ledger avsMint im avsInput vault poolAvs where
  controls := (h.avs _ _ rfl).controls
  isPool := isPool_of_eq hacc.pool_eq
  mints_ne := (h.avs _ _ rfl).mints_ne
  avsMint_some := (congrFun (initIfNeeded_mints hinit) _).trans hacc.avsMint_some
  avsMint_program := hacc.avsMint_program
  avsMint_authority := hacc.avsMint_authority
  inputMint_some := (congrFun (initIfNeeded_mints hinit) _).trans hacc.inputMint_some
  inputMint_program := hacc.inputMint_program
  inputMint_fee := h.noFee (by simp [Call.tokens]) hacc.inputMint_some
  avsInput_key := hacc.avsInput_key
  avsInput_some := initIfNeeded_account_of_some hinit hacc.avsInput_some
  avsInput_thawed := h.thawed _ (by simp [Call.accounts]) _ hacc.avsInput_some
  poolInput_key := hacc.poolInput_key
  poolInput_some := initIfNeeded_account_of_some hinit hacc.poolInput_some
  poolInput_thawed := h.thawed _ (by simp [Call.accounts]) _ hacc.poolInput_some
  poolAvs_key := hacc.poolAvs_key
  poolAvs_some := initIfNeeded_account_of_some hinit hacc.poolAvs_some
  poolAvs_thawed := h.thawed _ (by simp [Call.accounts]) _ hacc.poolAvs_some

/-- So are those that a delegation hands over, under the legacy token program. -/
theorem Delegate.Accepted.ready {a : DelegateAccounts} {im avsMint : Mint Pubkey}
    {vault avsInput : TokenAccount Pubkey} {r : LRTPool} {created : Loaded (TokenAccount Pubkey)}
    (hacc : Delegate.Accepted p a s avsMint avsInput im vault r)
    (hinit : initIfNeeded p a.signer a.poolAvsTokenVault a.avsTokenMint a.pool a.tokenProgram s =
      .ok (created, start))
    (h : Setting avsMints rt.programs p c s)
    (hc : c = .delegate a amount ∨ c = .undelegate a amount) :
    a.avsAccounts.Ready a.avsProgram start.ledger avsMint im avsInput vault created.account := by
  have htokens : c.tokens = [a.inputTokenMint, a.avsTokenMint] := by
    rcases hc with rfl | rfl <;> rfl
  have haccounts : c.accounts =
      [a.avsInputTokenVault, a.poolInputTokenVault, a.poolAvsTokenVault] := by
    rcases hc with rfl | rfl <;> rfl
  have havs := h.avs a.avsAccounts a.avsProgram (by rcases hc with rfl | rfl <;> rfl)
  have htoken : a.tokenProgram = .program .token :=
    hacc.inputMint_program.symm.trans (h.legacy _ (by simp [htokens]) _ hacc.inputMint_some)
  exact {
    controls := havs.controls
    isPool := isPool_of_eq hacc.pool_eq
    mints_ne := havs.mints_ne
    avsMint_some := (congrFun (initIfNeeded_mints hinit) _).trans hacc.avsMint_some
    avsMint_program := (h.legacy _ (by simp [htokens]) _ hacc.avsMint_some).trans htoken.symm
    avsMint_authority := hacc.avsMint_authority
    inputMint_some := (congrFun (initIfNeeded_mints hinit) _).trans hacc.inputMint_some
    inputMint_program := hacc.inputMint_program
    inputMint_fee := h.noFee (by simp [htokens]) hacc.inputMint_some
    avsInput_key := by
      show a.avsInputTokenVault = getAssociatedTokenAddress a.avs a.tokenProgram a.inputTokenMint
      rw [htoken]
      exact hacc.avsInput_key
    avsInput_some := initIfNeeded_account_of_some hinit hacc.avsInput_some
    avsInput_thawed := h.thawed _ (by simp [haccounts]) _ hacc.avsInput_some
    poolInput_key := hacc.poolInput_key
    poolInput_some := initIfNeeded_account_of_some hinit hacc.poolInput_some
    poolInput_thawed := h.thawed _ (by simp [haccounts]) _ hacc.poolInput_some
    poolAvs_key := ((initIfNeeded_eq_ok_iff ..).1 hinit).2.1
    poolAvs_some := initIfNeeded_account hinit
    poolAvs_thawed := initIfNeeded_thawed (h.thawed _ (by simp [haccounts])) hinit }

/-- After the burn the AVS redeems what the pool holds. -/
theorem Setting.exists_undelegate {a : WithdrawStakeAccounts} {im om avsMint : Mint Pubkey}
    {vault uo avsInput poolAvs : TokenAccount Pubkey} {r : LRTPool}
    {created : Loaded (TokenAccount Pubkey)} {burned : Ledger Pubkey}
    (h : Setting avsMints rt.programs p (.withdrawDelegatedStake a amount) s)
    (hacc : WithdrawStake.Accepted p a s im vault om uo r avsMint avsInput poolAvs)
    (hinit : initIfNeeded p a.signer a.signerInputTokenVault a.inputTokenMint a.signer
      a.tokenProgram s = .ok (created, start))
    (hle : amount.toNat ≤ poolAvs.amount)
    (hburn : exec p a.tokenProgram (.burn a.signerOutputTokenVault a.outputTokenMint a.signer
      amount.toNat) start.ledger = .ok burned) :
    ∃ cs l, AvsRun rt.programs a.avsAccounts a.avsProgram .undelegate amount
      { s with ledger := burned } l cs := by
  have havs := h.avs _ _ rfl
  have hready := hacc.ready hinit h
  obtain ⟨huser, huser_avs⟩ := h.user _ rfl
  obtain ⟨hne_pa, hne_av, -, hmint⟩ := hacc.apart
    (Pubkey.ne_of_not_isPool (isPool_of_eq hacc.pool_eq) huser) (huser_avs _ _ rfl)
    (Pubkey.not_isPool_of_controls havs.controls)
  have hprocess := ((exec_eq_ok_iff ..).1 hburn).2
  have hmoved := exec_fundsMoved rfl hburn
  have hl₀ := initIfNeeded_ledgerSound h.ledger hinit
  have hl := fundsMoved_ledgerSound hl₀ hmoved (process_conserved hl₀.conserved hprocess)
  -- the burn touches neither the accounts of the AVS nor its mint
  have hav_kept := process_account_of_notMem rfl hprocess
    (show a.avsInputTokenVault ∉ [a.signerOutputTokenVault] by simpa using hne_av.symm)
  have hpa_kept := process_account_of_notMem rfl hprocess
    (show a.poolAvsTokenVault ∉ [a.signerOutputTokenVault] by simpa using hne_pa.symm)
  have hmint_kept := process_mint_of_notMem rfl hprocess
    (show a.avsTokenMint ∉ [a.outputTokenMint] by simpa using hmint.symm)
  have hsupply : burned.supply a.avsTokenMint = s.ledger.supply a.avsTokenMint :=
    Ledger.supply_congr (hmint_kept.trans (congrFun (initIfNeeded_mints hinit) _))
  have hserves := havs.congr hsupply (hav_kept.trans
    ((initIfNeeded_account_of_some hinit hacc.avsInput_some).trans hacc.avsInput_some.symm))
  -- so the balance that the pool asks for is still the one that was deserialized
  obtain ⟨_, _, _, _, pa, hready'⟩ := hready.of_fundsMoved hmoved
  have hpa : burned.accounts a.poolAvsTokenVault = some pa := hready'.poolAvs_some
  obtain rfl : poolAvs = pa :=
    Option.some.inj (hready.poolAvs_some.symm.trans (hpa_kept.symm.trans hpa))
  exact HonestAvs.exists_undelegate (t := { s with ledger := burned }) hserves hready' hl hle

/-- Under its authority a delegation gets as far as the call to the AVS. -/
theorem Setting.delegation {a : DelegateAccounts} (h : Setting avsMints rt.programs p c s)
    (hc : c = .delegate a amount ∨ c = .undelegate a amount)
    (hauth : (s.pools a.pool).map LRTPool.delegateAuthority = some a.signer)
    (hacc : ∃ x, Delegate.tryAccounts p a (s.authorize a.pool a.signer) = .ok x)
    (hadm : ∀ m ∈ a.metas, p.admits m = true) :
    ∃ avsMint avsInput im vault r created start,
      Delegate.Accepted p a s avsMint avsInput im vault r ∧
      initIfNeeded p a.signer a.poolAvsTokenVault a.avsTokenMint a.pool a.tokenProgram s =
        .ok (created, start) ∧
      a.avsAccounts.Ready a.avsProgram start.ledger avsMint im avsInput vault created.account ∧
      HonestAvs avsMints rt.programs a.avsAccounts a.avsProgram start.ledger ∧
      LedgerSound start.ledger ∧
      ∀ m ∈ a.avsAccounts.metas, (sign p a.pool).admits m = true := by
  obtain ⟨r, hr, hsigner⟩ := Option.map_eq_some_iff.1 hauth
  rw [← hsigner, State.authorize_self hr] at hacc
  obtain ⟨⟨self, start⟩, htry⟩ := hacc
  obtain ⟨am, av, im, vault, r, created, hacc, hinit, -⟩ :=
    (Delegate.tryAccounts_eq_ok_iff ..).1 htry
  have havs := h.avs a.avsAccounts a.avsProgram (by rcases hc with rfl | rfl <;> rfl)
  have hready := hacc.ready hinit h hc
  have hserves : HonestAvs avsMints rt.programs a.avsAccounts a.avsProgram start.ledger :=
    havs.congr (Ledger.supply_congr (congrFun (initIfNeeded_mints hinit) _))
      ((initIfNeeded_account_of_some hinit hacc.avsInput_some).trans hacc.avsInput_some.symm)
  have hpoolAvs := ((initIfNeeded_eq_ok_iff ..).1 hinit).1
  have hp : ∀ m ∈ a.metas, p.available m.pubkey = true :=
    fun m hm => available_of_admits (hadm m hm)
  simp only [DelegateAccounts.metas, accountMeta, readonlyMeta, List.forall_mem_cons,
    List.not_mem_nil, false_imp_iff, implies_true, and_true] at hp
  refine ⟨am, av, im, vault, r, created, start, hacc, hinit, hready, hserves,
    initIfNeeded_ledgerSound h.ledger hinit, ?_⟩
  simp [AvsAccounts.metas, DelegateAccounts.avsAccounts, accountMeta, readonlyMeta,
    Privileges.admits, hp, hacc.pool_mut, hacc.avs_mut, hacc.avsMint_mut, hacc.avsInput_mut,
    hacc.inputMint_mut, hacc.poolInput_mut, hpoolAvs]

/-- On an accepted account list, with the privileges that the calls need, what the plain ledger
covers succeeds. -/
theorem execute_of_covered (h : Setting avsMints rt.programs p c s) (hacc : c.Accepted p s)
    (hadm : ∀ m ∈ c.demands, p.admits m = true) (hc : c.Covered s) :
    ∃ s', rt.execute p c s = .ok s' := by
  have hp : ∀ m ∈ c.demands, p.available m.pubkey = true :=
    fun m hm => available_of_admits (hadm m hm)
  cases c with
  | initializePool a limit => cases hacc
  | transferDelegateAuthority a => cases hacc
  | updateMintLimit a limit => cases hacc
  | deposit a amount =>
      obtain ⟨⟨self, start⟩, htry⟩ := hacc
      obtain ⟨im, ui, vault, om, r, created, hacc, hinit, -⟩ :=
        (Deposit.tryAccounts_eq_ok_iff ..).1 htry
      obtain ⟨hspend, hlimit⟩ := hc
      rw [Ledger.spendable_of_some hacc.signerInput_some,
        TokenAccount.le_spendable_iff hacc.signerInput_owner] at hspend
      rw [Ledger.supply_of_some hacc.outputMint_some, limitOf_of_some hacc.pool_some,
        Nat.le_min] at hlimit
      exact exists_deposit hacc hinit h.ledger
        (fun m hm => hp m (List.mem_cons_of_mem _ hm))
        (writable_of_admits (hadm _ List.mem_cons_self) rfl)
        (Pubkey.ne_of_not_isPool (isPool_of_eq hacc.pool_eq) (h.user _ rfl).1)
        (hacc.inputMint_program.symm.trans
          (h.legacy _ (by simp [Call.tokens]) _ hacc.inputMint_some))
        (h.thawed _ (by simp [Call.accounts]) _ hacc.signerInput_some)
        (h.thawed _ (by simp [Call.accounts]) _ hacc.poolInput_some)
        (initIfNeeded_thawed (h.thawed _ (by simp [Call.accounts])) hinit) hspend.2 hspend.1
        hlimit.1
  | withdraw a amount =>
      obtain ⟨self, htry⟩ := hacc
      obtain ⟨im, ui, vault, om, uo, r, hacc, -⟩ := (Withdraw.tryAccounts_eq_ok_iff ..).1 htry
      obtain ⟨hspend, hvault⟩ := hc
      rw [Ledger.spendable_of_some hacc.signerOutput_some,
        TokenAccount.le_spendable_iff hacc.signerOutput_owner] at hspend
      rw [Ledger.balance_of_some hacc.poolInput_some] at hvault
      exact exists_withdraw hacc h.ledger hp
        (Pubkey.ne_of_not_isPool (isPool_of_eq hacc.pool_eq) (h.user _ rfl).1)
        (h.noFee (by simp [Call.tokens]) hacc.inputMint_some)
        (h.thawed _ (by simp [Call.accounts]) _ hacc.signerInput_some)
        (h.thawed _ (by simp [Call.accounts]) _ hacc.poolInput_some)
        (h.thawed _ (by simp [Call.accounts]) _ hacc.signerOutput_some) hspend.2 hspend.1 hvault
  | withdrawDelegatedStake a amount =>
      obtain ⟨⟨self, start⟩, htry⟩ := hacc
      obtain ⟨im, vault, om, uo, r, am, av, pa, created, hacc, hinit, -⟩ :=
        (WithdrawStake.tryAccounts_eq_ok_iff ..).1 htry
      obtain ⟨hspend, hredeem⟩ := hc
      rw [Ledger.spendable_of_some hacc.signerOutput_some,
        TokenAccount.le_spendable_iff hacc.signerOutput_owner] at hspend
      rw [Ledger.balance_of_some hacc.poolAvs_some] at hredeem
      exact exists_withdrawDelegatedStake hacc h.ledger
        (h.noFee (by simp [Call.tokens]) hacc.inputMint_some) h.honest
        (h.avs _ _ rfl).inputMint_notMem hp
        (Pubkey.ne_of_not_isPool (isPool_of_eq hacc.pool_eq) (h.user _ rfl).1) hinit
        (initIfNeeded_thawed (h.thawed _ (by simp [Call.accounts])) hinit)
        (h.thawed _ (by simp [Call.accounts]) _ hacc.poolInput_some)
        (h.thawed _ (by simp [Call.accounts]) _ hacc.signerOutput_some) hspend.2 hspend.1 hredeem
        (fun burned hburn => h.exists_undelegate hacc hinit hredeem hburn)
  | delegate a amount =>
      obtain ⟨hauth, hvault⟩ := hc
      obtain ⟨am, av, im, vault, r, created, start, hacc, hinit, hready, hserves, hl, hmetas⟩ :=
        h.delegation (Or.inl rfl) hauth hacc hadm
      rw [Ledger.balance_of_some hacc.poolInput_some] at hvault
      obtain ⟨cs, l, hrun⟩ := hserves.exists_delegate (t := start) hready hl hvault
      exact ⟨_, (execute_delegate_iff ..).2 ⟨⟨am, av, im, vault, r, created, start, cs, l, hacc,
        hinit, hmetas, hrun⟩, hvault, rfl⟩⟩
  | undelegate a amount =>
      obtain ⟨hauth, hpoolAvs⟩ := hc
      obtain ⟨am, av, im, vault, r, created, start, hacc, hinit, hready, hserves, hl, hmetas⟩ :=
        h.delegation (Or.inr rfl) hauth hacc hadm
      -- the account may have been created just now, and then it is empty
      rw [← initIfNeeded_balance hinit, Ledger.balance_of_some (initIfNeeded_account hinit)]
        at hpoolAvs
      obtain ⟨cs, l, hrun⟩ := hserves.exists_undelegate (t := start) hready hl hpoolAvs
      exact ⟨_, (execute_undelegate_iff ..).2 ⟨⟨am, av, im, vault, r, created, start, cs, l, hacc,
        hinit, hmetas, hrun⟩, hpoolAvs, rfl⟩⟩

/-- The AVS has paid the amount into the vault when the liquidity is tested. -/
theorem withdrawDelegatedStake_liquid {a : WithdrawStakeAccounts}
    (h : Setting avsMints rt.programs p (.withdrawDelegatedStake a amount) s) :
    rt.execute p (.withdrawDelegatedStake a amount) s ≠
      .error (.lrt .insufficientSSOLFundsForWithdraw) := by
  intro herror
  obtain ⟨im, vault, om, uo, r, am, av, pa, created, start, burned, undelegated, cs, v, herror⟩ :=
    liquidity_of_error herror
  obtain ⟨hacc, hinit, hburn, hrun, hv, hlt⟩ := herror
  have havs := h.avs _ _ rfl
  have hready := hacc.ready hinit h
  obtain ⟨-, hpa, hav⟩ := hready.apart
  obtain ⟨-, -, -, hex⟩ := h.honest _ _ _ _ _ _ _ hrun
  have hpaid : undelegated.balance a.poolInputTokenVault =
      burned.balance a.poolInputTokenVault +
        (WithdrawStake.calculateInputTokenAmount amount).toNat :=
    exchange_pays_vault (x := a.avsAccounts) hex hpa hav.symm
  rw [Ledger.balance_of_some hv] at hpaid
  omega

end Enabled

namespace Sample

theorem operating_avs :
    HonestAvs registry.mints registry.programs exit.avsAccounts avsProgram operating.ledger :=
  Registry.honestAvs (by decide) rfl (by decide) (by decide) operating_ownHands

theorem operating_exit :
    Setting registry.mints registry.programs (signedBy user) (.withdrawDelegatedStake exit 50)
      operating where
  ledger := operating_sound
  legacy m _ := program_ofLists (by decide) m
  thawed k _ := thawed_ofLists (by decide) k
  user u hu := by
    obtain rfl := Option.some.inj hu
    refine ⟨rfl, fun x program h => ?_⟩
    obtain ⟨rfl, rfl⟩ := Prod.mk.inj (Option.some.inj h)
    decide
  honest := registry.honest.univ
  avs x program h := by
    obtain ⟨rfl, rfl⟩ := Prod.mk.inj (Option.some.inj h)
    exact operating_avs

/-- The operating state, after the user has named itself the delegate of its account for the output
tokens, with nothing allowed. -/
def allowing : State where
  ledger := .ofLists
    [(inputMint, mintOf authority 100), (outputMint, mintOf pool 100), (avsMint, mintOf avs 60)]
    [account user inputMint 0,
      (getAssociatedTokenAddress user tokenProgram outputMint,
        { (account user outputMint 100).2 with delegate := some user, delegatedAmount := 0 }),
      account pool inputMint 40, account pool outputMint 0, account pool avsMint 60,
      account avs inputMint 60]
  pools := operating.pools

/-- The accounts of a withdrawal of the user. -/
def leaving : WithdrawAccounts := .derived user tokenProgram pool (record 1000)

theorem allowing_leaving :
    Setting registry.mints registry.programs (signedBy user) (.withdraw leaving 10) allowing where
  ledger := ledgerSound_ofLists (by decide) (by decide) (by decide)
  legacy m _ := program_ofLists (by decide) m
  thawed k _ := thawed_ofLists (by decide) k
  user u hu := by
    obtain rfl := Option.some.inj hu
    exact ⟨rfl, fun x program h => by cases h⟩
  honest := registry.honest.univ
  avs x program h := by cases h

end Sample

end AdraLrt
