import AdraLrt.Invoke

/-!
# Successful instructions

What it means for an instruction of a transaction to succeed. For each of the five instructions that
move tokens a structure records the deserialized accounts and the ledger after every call, so that a
proof about a successful instruction can name any intermediate state. The other three only set the
pool record.

`execute_reach` forgets all of it but the signatures: whatever the instruction, the ledger moves by
token-program instructions that only the signers of the transaction, the pool of the instruction and
addresses derived by outside programs can authorize. Everything that holds for any use of these
signatures is proved from it.
-/

set_option autoImplicit false

namespace AdraLrt

open TokenLedger Checked

variable {rt : Runtime} {p : Privileges Pubkey} {s s' : State}

/-- A successful deposit. -/
structure DepositRun (p : Privileges Pubkey) (a : DepositAccounts) (amount : UInt64)
    (s : State) where
  inputMint : Mint Pubkey
  signerInput : TokenAccount Pubkey
  poolInput : TokenAccount Pubkey
  outputMint : Mint Pubkey
  record : LRTPool
  created : Loaded (TokenAccount Pubkey)
  start : State
  staked : Ledger Pubkey
  minted : Ledger Pubkey
  mintAfter : Mint Pubkey
  accepted : Deposit.Accepted p a s inputMint signerInput poolInput outputMint record
  init_eq : initIfNeeded p a.signer a.signerOutputTokenVault a.outputTokenMint a.signer
    a.tokenProgram s = .ok (created, start)
  stake_eq : exec p a.tokenProgram (.transfer a.signerInputTokenVault a.poolInputTokenVault
    a.signer amount.toNat (some (a.inputTokenMint, inputMint.decimals))) start.ledger = .ok staked
  mint_eq : exec (sign p a.pool) a.tokenProgram
    (.mintTo a.outputTokenMint a.signerOutputTokenVault a.pool amount.toNat) staked = .ok minted
  mintAfter_some : minted.mints a.outputTokenMint = some mintAfter
  mintAfter_program : isTokenInterface mintAfter.program = true
  limit : mintAfter.supply ≤ record.outputMintLimit.toNat

/-- A successful withdrawal, with the conversion of the amount. -/
structure WithdrawRun (convert : UInt64 → UInt64) (p : Privileges Pubkey) (a : WithdrawAccounts)
    (amount : UInt64) (s : State) where
  inputMint : Mint Pubkey
  signerInput : TokenAccount Pubkey
  poolInput : TokenAccount Pubkey
  outputMint : Mint Pubkey
  signerOutput : TokenAccount Pubkey
  record : LRTPool
  burned : Ledger Pubkey
  vault : TokenAccount Pubkey
  paid : Ledger Pubkey
  accepted : Withdraw.Accepted p a s inputMint signerInput poolInput outputMint signerOutput record
  burn_eq : exec p a.tokenProgram
    (.burn a.signerOutputTokenVault a.outputTokenMint a.signer amount.toNat) s.ledger = .ok burned
  vault_some : burned.accounts a.poolInputTokenVault = some vault
  vault_program : isTokenInterface vault.program = true
  guard : (convert amount).toNat ≤ vault.amount
  pay_eq : exec (sign p a.pool) a.tokenProgram
    (.transfer a.poolInputTokenVault a.signerInputTokenVault a.pool (convert amount).toNat
      (some (a.inputTokenMint, inputMint.decimals))) burned = .ok paid

/-- A successful forced exit, with the conversion of the amount. -/
structure WithdrawStakeRun (convert : UInt64 → UInt64) (rt : Runtime) (p : Privileges Pubkey)
    (a : WithdrawStakeAccounts) (amount : UInt64) (s : State) where
  inputMint : Mint Pubkey
  poolInput : TokenAccount Pubkey
  outputMint : Mint Pubkey
  signerOutput : TokenAccount Pubkey
  record : LRTPool
  avsMint : Mint Pubkey
  avsInput : TokenAccount Pubkey
  poolAvs : TokenAccount Pubkey
  created : Loaded (TokenAccount Pubkey)
  start : State
  burned : Ledger Pubkey
  poolAvsNow : TokenAccount Pubkey
  calls : List (Pubkey × TokenIx Pubkey)
  undelegated : Ledger Pubkey
  vault : TokenAccount Pubkey
  paid : Ledger Pubkey
  accepted : WithdrawStake.Accepted p a s inputMint poolInput outputMint signerOutput record avsMint
    avsInput poolAvs
  init_eq : initIfNeeded p a.signer a.signerInputTokenVault a.inputTokenMint a.signer
    a.tokenProgram s = .ok (created, start)
  burn_eq : exec p a.tokenProgram
    (.burn a.signerOutputTokenVault a.outputTokenMint a.signer amount.toNat) start.ledger =
    .ok burned
  poolAvsNow_some : burned.accounts a.poolAvsTokenVault = some poolAvsNow
  poolAvsNow_program : isTokenInterface poolAvsNow.program = true
  avsGuard : (convert amount).toNat ≤ poolAvsNow.amount
  admitted : ∀ m ∈ a.avsAccounts.metas, (sign p a.pool).admits m = true
  avs : AvsRun rt.programs a.avsAccounts a.avsProgram .undelegate (convert amount)
    { s with ledger := burned } undelegated calls
  vault_some : undelegated.accounts a.poolInputTokenVault = some vault
  vault_program : isTokenInterface vault.program = true
  guard : (convert amount).toNat ≤ vault.amount
  pay_eq : exec (sign p a.pool) a.tokenProgram
    (.transfer a.poolInputTokenVault a.signerInputTokenVault a.pool
      (convert (convert amount)).toNat (some (a.inputTokenMint, inputMint.decimals)))
    undelegated = .ok paid

/-- A successful call of `delegate` or `undelegate`, without the balance guard, which differs. -/
structure DelegateRun (rt : Runtime) (p : Privileges Pubkey) (a : DelegateAccounts)
    (name : InstructionName) (amount : UInt64) (s : State) where
  avsMint : Mint Pubkey
  avsInput : TokenAccount Pubkey
  inputMint : Mint Pubkey
  poolInput : TokenAccount Pubkey
  record : LRTPool
  created : Loaded (TokenAccount Pubkey)
  start : State
  calls : List (Pubkey × TokenIx Pubkey)
  exchanged : Ledger Pubkey
  accepted : Delegate.Accepted p a s avsMint avsInput inputMint poolInput record
  init_eq : initIfNeeded p a.signer a.poolAvsTokenVault a.avsTokenMint a.pool a.tokenProgram s =
    .ok (created, start)
  admitted : ∀ m ∈ a.avsAccounts.metas, (sign p a.pool).admits m = true
  avs : AvsRun rt.programs a.avsAccounts a.avsProgram name amount start exchanged calls

section Iff

variable (rt p s s')

theorem execute_deposit_iff (a : DepositAccounts) (amount : UInt64) :
    rt.execute p (.deposit a amount) s = .ok s' ↔
      ∃ d : DepositRun p a amount s, s' = { s with ledger := d.minted } := by
  constructor
  · intro h
    obtain ⟨im, sv, pv, om, r, created, s₀, l₁, l₂, m, h, hcr, hl₁, hl₂, hm, hmp, hle, hs⟩ :=
      (deposit_eq_ok_iff ..).1 h
    exact ⟨⟨im, sv, pv, om, r, created, s₀, l₁, l₂, m, h, hcr, hl₁, hl₂, hm, hmp, hle⟩, hs⟩
  · rintro ⟨d, rfl⟩
    exact (deposit_eq_ok_iff ..).2 ⟨_, _, _, _, _, _, _, _, _, _, d.accepted, d.init_eq, d.stake_eq,
      d.mint_eq, d.mintAfter_some, d.mintAfter_program, d.limit, rfl⟩

theorem withdrawWith_iff (convert : UInt64 → UInt64) (a : WithdrawAccounts) (amount : UInt64) :
    withdrawWith convert (rt.cx p) a amount s = .ok s' ↔
      ∃ d : WithdrawRun convert p a amount s, s' = { s with ledger := d.paid } := by
  constructor
  · intro h
    obtain ⟨im, sv, pv, om, so, r, l₁, v, l₂, h, hl₁, hv, hvp, hle, hl₂, hs⟩ :=
      (withdrawWith_eq_ok_iff ..).1 h
    exact ⟨⟨im, sv, pv, om, so, r, l₁, v, l₂, h, hl₁, hv, hvp, hle, hl₂⟩, hs⟩
  · rintro ⟨d, rfl⟩
    exact (withdrawWith_eq_ok_iff ..).2 ⟨_, _, _, _, _, _, _, _, _, d.accepted, d.burn_eq,
      d.vault_some, d.vault_program, d.guard, d.pay_eq, rfl⟩

theorem execute_withdraw_iff (a : WithdrawAccounts) (amount : UInt64) :
    rt.execute p (.withdraw a amount) s = .ok s' ↔
      ∃ d : WithdrawRun id p a amount s, s' = { s with ledger := d.paid } :=
  withdrawWith_iff rt p s s' id a amount

theorem withdrawDelegatedStakeWith_iff (convert : UInt64 → UInt64) (a : WithdrawStakeAccounts)
    (amount : UInt64) :
    withdrawDelegatedStakeWith convert (rt.cx p) a amount s = .ok s' ↔
      ∃ d : WithdrawStakeRun convert rt p a amount s, s' = { s with ledger := d.paid } := by
  constructor
  · intro h
    obtain ⟨im, pv, om, so, r, am, av, pa, created, s₀, l₁, w, s₂, v, l₃, h, hcr, hl₁, h'⟩ :=
      (withdrawDelegatedStakeWith_eq_ok_iff ..).1 h
    obtain ⟨hw, hwp, hlew, hs₂, hv, hvp, hle, hl₃, hs⟩ := h'
    obtain ⟨hadm, cs, l₂, hrun, rfl⟩ := (rt.invoke_eq_ok_iff _ _ _ _ (Or.inr rfl) _ _ _).1 hs₂
    refine ⟨⟨im, pv, om, so, r, am, av, pa, created, s₀, l₁, w, cs, l₂, v, l₃, h, hcr, hl₁, hw, hwp,
      hlew, hadm, hrun, hv, hvp, hle, hl₃⟩, ?_⟩
    rw [hs]
    exact exit_eq l₃ h.pool_some rfl
  · rintro ⟨d, rfl⟩
    refine (withdrawDelegatedStakeWith_eq_ok_iff ..).2 ⟨_, _, _, _, _, _, _, _, _, _, _, _,
      { s with ledger := d.undelegated }, _, d.paid, d.accepted, d.init_eq, d.burn_eq,
      d.poolAvsNow_some, d.poolAvsNow_program, d.avsGuard, ?_, d.vault_some, d.vault_program,
      d.guard, d.pay_eq, ?_⟩
    · exact (rt.invoke_eq_ok_iff _ _ _ _ (Or.inr rfl) _ _ _).2 ⟨d.admitted, _, _, d.avs, rfl⟩
    · exact (exit_eq d.paid d.accepted.pool_some rfl).symm

theorem execute_withdrawDelegatedStake_iff (a : WithdrawStakeAccounts) (amount : UInt64) :
    rt.execute p (.withdrawDelegatedStake a amount) s = .ok s' ↔
      ∃ d : WithdrawStakeRun id rt p a amount s, s' = { s with ledger := d.paid } :=
  withdrawDelegatedStakeWith_iff rt p s s' id a amount

theorem execute_delegate_iff (a : DelegateAccounts) (amount : UInt64) :
    rt.execute p (.delegate a amount) s = .ok s' ↔
      ∃ d : DelegateRun rt p a .delegate amount s, amount.toNat ≤ d.poolInput.amount ∧
        s' = { s with ledger := d.exchanged } := by
  constructor
  · intro h
    obtain ⟨am, av, im, pv, r, created, s₀, s₁, h, hcr, hle, hs₁, hs⟩ := (delegate_eq_ok_iff ..).1 h
    obtain ⟨hadm, cs, l, hrun, rfl⟩ := (rt.invoke_eq_ok_iff _ _ _ _ (Or.inl rfl) _ _ _).1 hs₁
    refine ⟨⟨am, av, im, pv, r, created, s₀, cs, l, h, hcr, hadm, hrun⟩, hle, ?_⟩
    have hpools := initIfNeeded_pools hcr
    rw [hs]
    exact exit_eq l h.pool_some hpools
  · rintro ⟨d, hle, rfl⟩
    have hpools := initIfNeeded_pools d.init_eq
    refine (delegate_eq_ok_iff ..).2 ⟨_, _, _, _, _, _, _, { d.start with ledger := d.exchanged },
      d.accepted, d.init_eq, hle, ?_, ?_⟩
    · exact (rt.invoke_eq_ok_iff _ _ _ _ (Or.inl rfl) _ _ _).2 ⟨d.admitted, _, _, d.avs, rfl⟩
    · exact (exit_eq d.exchanged d.accepted.pool_some hpools).symm

theorem execute_undelegate_iff (a : DelegateAccounts) (amount : UInt64) :
    rt.execute p (.undelegate a amount) s = .ok s' ↔
      ∃ d : DelegateRun rt p a .undelegate amount s, amount.toNat ≤ d.created.account.amount ∧
        s' = { s with ledger := d.exchanged } := by
  constructor
  · intro h
    obtain ⟨am, av, im, pv, r, created, s₀, s₁, h, hcr, hle, hs₁, hs⟩ :=
      (undelegate_eq_ok_iff ..).1 h
    obtain ⟨hadm, cs, l, hrun, rfl⟩ := (rt.invoke_eq_ok_iff _ _ _ _ (Or.inr rfl) _ _ _).1 hs₁
    refine ⟨⟨am, av, im, pv, r, created, s₀, cs, l, h, hcr, hadm, hrun⟩, hle, ?_⟩
    have hpools := initIfNeeded_pools hcr
    rw [hs]
    exact exit_eq l h.pool_some hpools
  · rintro ⟨d, hle, rfl⟩
    have hpools := initIfNeeded_pools d.init_eq
    refine (undelegate_eq_ok_iff ..).2 ⟨_, _, _, _, _, _, _,
      { d.start with ledger := d.exchanged }, d.accepted, d.init_eq, hle, ?_, ?_⟩
    · exact (rt.invoke_eq_ok_iff _ _ _ _ (Or.inr rfl) _ _ _).2 ⟨d.admitted, _, _, d.avs, rfl⟩
    · exact (exit_eq d.exchanged d.accepted.pool_some hpools).symm

end Iff

/-! ## The ledger under any instruction -/

/-- The privileges that an instruction of `pool` can use in all: those of the transaction, the
signature of the pool, and signatures of addresses that outside programs derived. -/
def ceiling (p : Privileges Pubkey) (pool : Pubkey) : Privileges Pubkey where
  available _ := true
  signer k := p.signer k || k = pool || k.isProgramDerived
  writable := p.writable

theorem le_ceiling (p : Privileges Pubkey) (pool : Pubkey) : p.Le (ceiling p pool) where
  available _ _ := rfl
  signer k hk := by simp [ceiling, hk]
  writable _ hk := hk

theorem sign_le_ceiling (p : Privileges Pubkey) (pool : Pubkey) :
    (sign p pool).Le (ceiling p pool) where
  available _ _ := rfl
  signer k hk := by
    rw [sign_signer] at hk
    simp [ceiling, hk]
  writable _ hk := hk

theorem AvsAccounts.privileges_le_ceiling {x : AvsAccounts} (avsProgram : Pubkey)
    (h : ∀ m ∈ x.metas, (sign p x.pool).admits m = true) :
    (x.privileges avsProgram).Le (ceiling p x.pool) where
  available _ _ := rfl
  signer k hk := by
    -- a callee signs for the pool and for addresses of its own
    rcases (x.privileges_signer avsProgram k).1 hk with rfl | ⟨-, hc⟩
    · simp [ceiling]
    · simp [ceiling, Pubkey.isProgramDerived_of_controls hc]
  writable k hk := by
    simp only [AvsAccounts.privileges, calleePrivileges, List.any_eq_true, Bool.and_eq_true,
      decide_eq_true_eq] at hk
    obtain ⟨m, hm, rfl, hw⟩ := hk
    exact writable_of_admits (p := sign p x.pool) (h m hm) hw

theorem reach_of_initIfNeeded {payer k mint authority tokenProgram pool : Pubkey}
    {v : Loaded (TokenAccount Pubkey)}
    (h : initIfNeeded p payer k mint authority tokenProgram s = .ok (v, s')) :
    Reach (ceiling p pool) s.ledger s'.ledger := by
  obtain ⟨hw, -, -, ⟨rfl, -⟩ | ⟨hnone, hm, ⟨m, hx, hp⟩, hv, rfl, -⟩⟩ :=
    (initIfNeeded_eq_ok_iff ..).1 h
  · exact Relation.ReflTransGen.refl
  · -- the creation is an instruction of the token program too
    refine Relation.ReflTransGen.single ⟨tokenProgram, .initializeAccount k mint authority, ?_⟩
    refine (exec_eq_ok_iff ..).2 ⟨?_, ?_⟩
    · simp [TokenIx.metas, Privileges.admits, ceiling, hw]
    · rw [hv]
      exact (processInitializeAccount_eq_ok_iff ..).2 ⟨m, hm, hnone, hx, hp, rfl⟩

theorem reach_of_exec {pool program : Pubkey} {ix : TokenIx Pubkey} {q : Privileges Pubkey}
    {l l' : Ledger Pubkey} (hq : q.Le (ceiling p pool)) (h : exec q program ix l = .ok l') :
    Reach (ceiling p pool) l l' :=
  Relation.ReflTransGen.single ⟨program, ix, exec_mono hq h⟩

theorem AvsRun.reach {x : AvsAccounts} {avsProgram : Pubkey} {name : InstructionName}
    {amount : UInt64} {l : Ledger Pubkey} {cs : List (Pubkey × TokenIx Pubkey)}
    (h : AvsRun rt.programs x avsProgram name amount s l cs)
    (hadm : ∀ m ∈ x.metas, (sign p x.pool).admits m = true) :
    Reach (ceiling p x.pool) s.ledger l :=
  reach_mono (AvsAccounts.privileges_le_ceiling avsProgram hadm) (reach_of_execAll h.execAll_eq)

/-- The ledger of a successful instruction moves by token-program instructions that only the signers
of the transaction, the pool of the instruction and addresses derived by outside programs can
authorize, on accounts that the transaction may write. -/
theorem execute_reach {call : Call} (h : rt.execute p call s = .ok s') :
    Reach (ceiling p call.pool) s.ledger s'.ledger := by
  cases call with
  | initializePool a limit =>
      obtain ⟨-, -, -, -, rfl⟩ := (initializePool_eq_ok_iff ..).1 h
      exact Relation.ReflTransGen.refl
  | deposit a amount =>
      obtain ⟨d, rfl⟩ := (execute_deposit_iff ..).1 h
      have hstaked : Reach (ceiling p a.pool) s.ledger d.staked :=
        (reach_of_initIfNeeded d.init_eq).trans (reach_of_exec (le_ceiling ..) d.stake_eq)
      exact hstaked.trans (reach_of_exec (sign_le_ceiling ..) d.mint_eq)
  | withdraw a amount =>
      obtain ⟨d, rfl⟩ := (execute_withdraw_iff ..).1 h
      exact (reach_of_exec (le_ceiling ..) d.burn_eq).trans
        (reach_of_exec (sign_le_ceiling ..) d.pay_eq)
  | withdrawDelegatedStake a amount =>
      obtain ⟨d, rfl⟩ := (execute_withdrawDelegatedStake_iff ..).1 h
      -- created, burned, undelegated, paid
      exact (((reach_of_initIfNeeded d.init_eq).trans
        (reach_of_exec (le_ceiling ..) d.burn_eq)).trans (d.avs.reach d.admitted)).trans
        (reach_of_exec (sign_le_ceiling ..) d.pay_eq)
  | transferDelegateAuthority a =>
      obtain ⟨-, -, -, -, -, -, -, rfl⟩ := (transferDelegateAuthority_eq_ok_iff ..).1 h
      exact Relation.ReflTransGen.refl
  | delegate a amount =>
      obtain ⟨d, -, rfl⟩ := (execute_delegate_iff ..).1 h
      exact (reach_of_initIfNeeded d.init_eq).trans (d.avs.reach d.admitted)
  | undelegate a amount =>
      obtain ⟨d, -, rfl⟩ := (execute_undelegate_iff ..).1 h
      exact (reach_of_initIfNeeded d.init_eq).trans (d.avs.reach d.admitted)
  | updateMintLimit a limit =>
      obtain ⟨-, -, -, -, -, -, -, rfl⟩ := (updateMintLimit_eq_ok_iff ..).1 h
      exact Relation.ReflTransGen.refl

end AdraLrt
