import AdraLrt.Refinement
import AdraLrt.TokenLedger.Refusal

/-!
# What a refused caller is told

On an accepted account list the plain ledger also says why an instruction fails: the amount is more
than the signer can move, the minted tokens do not fit, the limit would be exceeded, the vault or
the AVS position is short, or the signer is not the delegate authority (`Call.refusal`). The handler
makes its tests in another order and partly after other programs ran, but it fails with this error
and with no other (`execute_eq_error_iff`).
-/

set_option autoImplicit false

namespace AdraLrt

open TokenLedger Checked

/-- Why the plain ledger refuses the instruction, if it does. -/
def Call.refusal (s : State) : Call → Option ProgramError
  -- the transfer and the minting are calls of the token program, the limit is checked afterwards
  | deposit a amount =>
      if s.ledger.spendable a.signerInputTokenVault a.signer < amount.toNat then
        some (.cpi (.token .insufficientFunds))
      else if u64Max < s.ledger.supply a.outputTokenMint + amount.toNat then
        some (.cpi (.token .overflow))
      else if limitOf a.pool s < s.ledger.supply a.outputTokenMint + amount.toNat then
        some (.lrt .outputMintLimitExceeded)
      else none
  -- the output tokens are burned before the vault is looked at
  | withdraw a amount =>
      if s.ledger.spendable a.signerOutputTokenVault a.signer < amount.toNat then
        some (.cpi (.token .insufficientFunds))
      else if s.ledger.balance a.poolInputTokenVault < amount.toNat then
        some (.lrt .insufficientStakedSOLFundsForWithdraw)
      else none
  | withdrawDelegatedStake a amount =>
      if s.ledger.spendable a.signerOutputTokenVault a.signer < amount.toNat then
        some (.cpi (.token .insufficientFunds))
      else if s.ledger.balance a.poolAvsTokenVault < amount.toNat then
        some (.lrt .insufficientAvsTokenForUndelegate)
      else none
  -- the authority is a constraint on the accounts, so it comes before the guard of the handler
  | delegate a amount =>
      if (s.pools a.pool).map LRTPool.delegateAuthority ≠ some a.signer then
        some (.lrt .invalidDelegateAuthority)
      else if s.ledger.balance a.poolInputTokenVault < amount.toNat then
        some (.lrt .insufficientSSOLFundsForDelegate)
      else none
  | undelegate a amount =>
      if (s.pools a.pool).map LRTPool.delegateAuthority ≠ some a.signer then
        some (.lrt .invalidDelegateAuthority)
      else if s.ledger.balance a.poolAvsTokenVault < amount.toNat then
        some (.lrt .insufficientAvsTokenForUndelegate)
      else none
  -- the others set a record, which the plain ledger does not have
  | _ => none

section Outcome

variable {avsMints : Finset Pubkey} {rt : Runtime} {p : Privileges Pubkey} {c : Call}
  {s start : State} {amount : UInt64} {e : ProgramError}

/-- A failed call to the token program passes its error on. -/
theorem tokenCpi_eq_error {program : Pubkey} {ix : TokenIx Pubkey}
    (h : tokenCpi p program ix s = .error e) : ∃ e', exec p program ix s.ledger = .error e' ∧
      e = .cpi e' := by
  cases hexec : exec p program ix s.ledger with
  | error e' =>
      simp only [tokenCpi, hexec, mapError, bind, Except.bind] at h
      cases h
      exact ⟨e', rfl, rfl⟩
  | ok l =>
      simp only [tokenCpi, hexec, mapError, bind, Except.bind] at h
      cases h

/-- The guard on a reloaded account that is short is the first thing to fail. -/
theorem guard_eq_error {v : Loaded (TokenAccount Pubkey)} {x : TokenAccount Pubkey} {n : Nat}
    {e₀ : ProgramError} {β : Type} {f : Loaded (TokenAccount Pubkey) → Unit → Except ProgramError β}
    (hx : s.ledger.accounts v.key = some x) (hp : isTokenInterface x.program = true)
    (hlt : x.amount < n)
    (herror : (do
      let w ← reloadToken s v
      let u ← require (n ≤ w.account.amount) e₀
      f w u) = .error e) :
    e₀ = e := by
  have hreload : reloadToken s v = .ok ⟨v.key, x⟩ := (loadToken_eq_ok_iff ..).2 ⟨rfl, hx, hp⟩
  have hguard : require (n ≤ x.amount) e₀ = .error e₀ := if_neg (Nat.not_le.2 hlt)
  simp only [hreload, bind, Except.bind, hguard] at herror
  exact Except.error.inj herror

/-- What fails was not covered. -/
theorem not_covered_of_eq_error (h : Setting avsMints rt.programs p c s) (hacc : c.Accepted p s)
    (hadm : ∀ m ∈ c.demands, p.admits m = true) (herror : rt.execute p c s = .error e) :
    ¬c.Covered s := by
  intro hc
  obtain ⟨s', hs'⟩ := execute_of_covered h hacc hadm hc
  cases herror.symm.trans hs'

/-! ## Deposits -/

section Deposit

variable {a : DepositAccounts} {im om : Mint Pubkey} {ui vault : TokenAccount Pubkey} {r : LRTPool}
  {created : Loaded (TokenAccount Pubkey)}

/-- The account list of a deposit with the data that the handler works on. -/
def Deposit.loaded (a : DepositAccounts) (im om : Mint Pubkey) (ui vault : TokenAccount Pubkey)
    (r : LRTPool) (created : Loaded (TokenAccount Pubkey)) : Deposit :=
  ⟨a.signer, ⟨a.inputTokenMint, im⟩, ⟨a.signerInputTokenVault, ui⟩, ⟨a.poolInputTokenVault, vault⟩,
    ⟨a.outputTokenMint, om⟩, created, ⟨a.pool, r⟩, a.associatedTokenProgram, a.tokenProgram,
    a.systemProgram⟩

theorem deposit_stake_eq_error (h : Setting avsMints rt.programs p (.deposit a amount) s)
    (hacc : Deposit.Accepted p a s im ui vault om r)
    (hinit : initIfNeeded p a.signer a.signerOutputTokenVault a.outputTokenMint a.signer
      a.tokenProgram s = .ok (created, start))
    (hadm : ∀ m ∈ (Call.deposit a amount).demands, p.admits m = true)
    (herror : Deposit.stake (rt.cx p) (Deposit.loaded a im om ui vault r created) amount start =
      .error e) :
    e = .cpi (.token .insufficientFunds) ∧
      s.ledger.spendable a.signerInputTokenVault a.signer < amount.toNat := by
  have hp : ∀ m ∈ (Call.deposit a amount).demands, p.available m.pubkey = true :=
    fun m hm => available_of_admits (hadm m hm)
  simp only [Call.demands, DepositAccounts.metas, accountMeta, readonlyMeta, List.forall_mem_cons,
    List.not_mem_nil, false_imp_iff, implies_true, and_true] at hp
  have hw : p.writable a.signerInputTokenVault = true :=
    writable_of_admits (hadm _ List.mem_cons_self) rfl
  have htoken : a.tokenProgram = .program .token :=
    hacc.inputMint_program.symm.trans
      (h.legacy _ (by simp [Call.tokens]) _ hacc.inputMint_some)
  have hsource : a.signerInputTokenVault ≠ a.poolInputTokenVault :=
    associated_ne_of_wallet hacc.signerInput_key hacc.poolInput_key
      (Pubkey.ne_of_not_isPool (isPool_of_eq hacc.pool_eq) (h.user _ rfl).1)
  have hvault_key : a.poolInputTokenVault =
      getAssociatedTokenAddress a.pool a.tokenProgram a.inputTokenMint :=
    htoken.symm ▸ hacc.poolInput_key
  have hl := initIfNeeded_ledgerSound h.ledger hinit
  have him := (congrFun (initIfNeeded_mints hinit) _).trans hacc.inputMint_some
  have hui := initIfNeeded_account_of_some hinit hacc.signerInput_some
  have hvault := initIfNeeded_account_of_some hinit hacc.poolInput_some
  obtain ⟨e', hexec, rfl⟩ := tokenCpi_eq_error herror
  change exec p a.tokenProgram (.transfer a.signerInputTokenVault a.poolInputTokenVault a.signer
    amount.toNat (some (a.inputTokenMint, im.decimals))) start.ledger = .error e' at hexec
  rw [← hacc.inputMint_program] at hexec
  obtain ⟨rfl, hshort⟩ := exec_transfer_eq_error hl.conserved hsource hui hvault him
    (hl.associated _ _ _ ui (hacc.signerInput_key ▸ hui))
    (hl.associated _ _ _ vault (hvault_key ▸ hvault))
    (hacc.signerInput_program.trans hacc.inputMint_program.symm)
    ((hl.program _ _ _ vault (hvault_key ▸ hvault)).trans hacc.inputMint_program.symm)
    (h.noFee (by simp [Call.tokens]) hacc.inputMint_some)
    (h.thawed _ (by simp [Call.accounts]) _ hacc.signerInput_some)
    (h.thawed _ (by simp [Call.accounts]) _ hacc.poolInput_some) hacc.signerInput_owner
    (by simp [TokenIx.metas, Privileges.admits, hp, hacc.signer, hw, hacc.poolInput_mut]) hexec
  rw [Ledger.spendable_of_some hacc.signerInput_some]
  exact ⟨rfl, hshort⟩

/-- After the transfer the minting overflows or the limit is exceeded. -/
theorem deposit_mint_eq_error {staked : Ledger Pubkey}
    (h : Setting avsMints rt.programs p (.deposit a amount) s)
    (hacc : Deposit.Accepted p a s im ui vault om r)
    (hinit : initIfNeeded p a.signer a.signerOutputTokenVault a.outputTokenMint a.signer
      a.tokenProgram s = .ok (created, start))
    (hadm : ∀ m ∈ (Call.deposit a amount).demands, p.admits m = true)
    (hstake : exec p a.tokenProgram (.transfer a.signerInputTokenVault a.poolInputTokenVault
      a.signer amount.toNat (some (a.inputTokenMint, im.decimals))) start.ledger = .ok staked)
    (herror : Deposit.mintOutputToken (rt.cx p) (Deposit.loaded a im om ui vault r created) amount
      { start with ledger := staked } = .error e) :
    e = .cpi (.token .overflow) ∧
        u64Max < s.ledger.supply a.outputTokenMint + amount.toNat ∨
      e = .lrt .outputMintLimitExceeded ∧
        s.ledger.supply a.outputTokenMint + amount.toNat ≤ u64Max ∧
        limitOf a.pool s < s.ledger.supply a.outputTokenMint + amount.toNat := by
  have hp : ∀ m ∈ (Call.deposit a amount).demands, p.available m.pubkey = true :=
    fun m hm => available_of_admits (hadm m hm)
  simp only [Call.demands, DepositAccounts.metas, accountMeta, readonlyMeta, List.forall_mem_cons,
    List.not_mem_nil, false_imp_iff, implies_true, and_true] at hp
  obtain ⟨huo_mut, huo_key, -⟩ := (initIfNeeded_eq_ok_iff ..).1 hinit
  have hl := initIfNeeded_ledgerSound h.ledger hinit
  have hmoved := exec_fundsMoved rfl hstake
  have hconserved := process_conserved hl.conserved ((exec_eq_ok_iff ..).1 hstake).2
  have hom : staked.mints a.outputTokenMint = some om := by
    rw [processTransfer_mints ((exec_eq_ok_iff ..).1 hstake).2, initIfNeeded_mints hinit]
    exact hacc.outputMint_some
  have huo := initIfNeeded_account hinit
  obtain ⟨uo, huo', hterms⟩ := hmoved.some_account _ _ huo
  rw [Ledger.supply_of_some hacc.outputMint_some, limitOf_of_some hacc.pool_some]
  -- nothing but an overflow can go wrong with the minting
  have hmint : ∀ e', exec (sign p a.pool) a.tokenProgram
      (.mintTo a.outputTokenMint a.signerOutputTokenVault a.pool amount.toNat) staked =
        .error e' → e' = .token .overflow ∧ u64Max < om.supply + amount.toNat := by
    intro e' hexec
    rw [← hacc.outputMint_program] at hexec
    exact exec_mintTo_eq_error hconserved huo' hom
      (hterms.mint.trans (hl.associated _ _ _ _ (huo_key ▸ huo)))
      (hterms.program.trans ((initIfNeeded_program hinit).trans hacc.outputMint_program.symm))
      (hterms.frozen.trans (initIfNeeded_thawed (h.thawed _ (by simp [Call.accounts])) hinit))
      hacc.outputMint_authority
      (by simp [TokenIx.metas, Privileges.admits, hp, hacc.outputMint_mut, huo_mut]) hexec
  have hseeds : poolAddress a.outputTokenMint r.bump = a.pool := hacc.pool_eq.symm
  simp only [Deposit.mintOutputToken, bind_eq_error_iff, tokenCpi_eq_ok_iff,
    require_eq_error_iff] at herror
  simp only [Deposit.loaded, hseeds, initIfNeeded_key hinit] at herror
  rcases herror with herror | ⟨_, ⟨minted, hminted, rfl⟩, herror⟩
  · obtain ⟨e', hexec, rfl⟩ := tokenCpi_eq_error herror
    obtain ⟨rfl, hover⟩ := hmint e' hexec
    exact Or.inl ⟨rfl, hover⟩
  · obtain ⟨dst, m, -, -, -, -, hm, -, -, -, hfits, rfl⟩ :=
      (processMintTo_eq_ok_iff ..).1 ((exec_eq_ok_iff ..).1 hminted).2
    obtain rfl := Option.some.inj (hom.symm.trans hm)
    refine Or.inr ?_
    have hreload : ∀ t : State, t.ledger.mints a.outputTokenMint =
        some (om.withSupply (om.supply + amount.toNat)) →
        reloadMint t ⟨a.outputTokenMint, om⟩ =
          .ok ⟨a.outputTokenMint, om.withSupply (om.supply + amount.toNat)⟩ := by
      intro t ht
      refine (loadMint_eq_ok_iff ..).2 ⟨rfl, ht, ?_⟩
      rw [Mint.withSupply_program, hacc.outputMint_program]
      exact hacc.tokenProgram
    rw [hreload _ (if_pos rfl)] at herror
    rcases herror with herror | ⟨m', hm', ⟨hguard, rfl⟩ | ⟨_, -, herror⟩⟩
    · cases herror
    · cases hm'
      exact ⟨rfl, hfits, Nat.lt_of_not_le hguard⟩
    · cases herror

theorem deposit_eq_error (h : Setting avsMints rt.programs p (.deposit a amount) s)
    (hacc : Call.Accepted p s (.deposit a amount))
    (hadm : ∀ m ∈ (Call.deposit a amount).demands, p.admits m = true)
    (herror : rt.execute p (.deposit a amount) s = .error e) :
    (Call.deposit a amount).refusal s = some e := by
  obtain ⟨⟨self, start⟩, htry⟩ := hacc
  obtain ⟨im, ui, vault, om, r, created, hacc, hinit, rfl⟩ :=
    (Deposit.tryAccounts_eq_ok_iff ..).1 htry
  change AdraLrt.deposit (rt.cx p) a amount s = .error e at herror
  simp only [AdraLrt.deposit, bind_eq_error_iff, Prod.exists, Deposit.stake,
    tokenCpi_eq_ok_iff] at herror
  rcases herror with herror | ⟨self', start', hself, herror⟩
  · cases htry.symm.trans herror
  cases htry.symm.trans hself
  rcases herror with herror | ⟨_, ⟨staked, hstake, rfl⟩, herror | ⟨_, _, -, herror⟩⟩
  · obtain ⟨rfl, hshort⟩ := deposit_stake_eq_error h hacc hinit hadm herror
    rw [Call.refusal, if_pos hshort]
  · have hui := initIfNeeded_account_of_some hinit hacc.signerInput_some
    have hspend := le_spendable_of_transfer hstake hui hacc.signerInput_owner
    rw [Ledger.spendable_of_some hui, ← Ledger.spendable_of_some hacc.signerInput_some] at hspend
    rw [Call.refusal, if_neg (Nat.not_lt.2 hspend)]
    rcases deposit_mint_eq_error h hacc hinit hadm hstake herror with
      ⟨rfl, hover⟩ | ⟨rfl, hfits, hlimit⟩
    · rw [if_pos hover]
    · rw [if_neg (Nat.not_lt.2 hfits), if_pos hlimit]
  · cases herror

end Deposit

/-! ## Withdrawals -/

theorem withdraw_eq_error {a : WithdrawAccounts}
    (h : Setting avsMints rt.programs p (.withdraw a amount) s)
    (hacc : Call.Accepted p s (.withdraw a amount))
    (hadm : ∀ m ∈ (Call.withdraw a amount).demands, p.admits m = true)
    (herror : rt.execute p (.withdraw a amount) s = .error e) :
    (Call.withdraw a amount).refusal s = some e := by
  have hcovered := not_covered_of_eq_error h hacc hadm herror
  have hp : ∀ m ∈ (Call.withdraw a amount).demands, p.available m.pubkey = true :=
    fun m hm => available_of_admits (hadm m hm)
  simp only [Call.demands, Call.metas, WithdrawAccounts.metas, accountMeta, readonlyMeta,
    List.forall_mem_cons, List.not_mem_nil, false_imp_iff, implies_true, and_true] at hp
  obtain ⟨self, htry⟩ := hacc
  obtain ⟨im, ui, vault, om, uo, r, hacc, rfl⟩ := (Withdraw.tryAccounts_eq_ok_iff ..).1 htry
  change AdraLrt.withdraw (rt.cx p) a amount s = .error e at herror
  simp only [AdraLrt.withdraw, withdrawWith, bind_eq_error_iff, Prod.exists,
    Withdraw.burnOutputToken, tokenCpi_eq_ok_iff] at herror
  rcases herror with herror | ⟨self', hself, herror⟩
  · cases htry.symm.trans herror
  cases htry.symm.trans hself
  rcases herror with herror | ⟨_, ⟨burned, hburn, rfl⟩, herror | ⟨_, _, -, herror⟩⟩
  · obtain ⟨e', hexec, rfl⟩ := tokenCpi_eq_error herror
    change exec p a.tokenProgram (.burn a.signerOutputTokenVault a.outputTokenMint a.signer
      amount.toNat) s.ledger = .error e' at hexec
    rw [← hacc.outputMint_program] at hexec
    obtain ⟨rfl, hshort⟩ := exec_burn_eq_error h.ledger.conserved hacc.signerOutput_some
      hacc.outputMint_some
      (h.ledger.associated _ _ _ uo (hacc.signerOutput_key ▸ hacc.signerOutput_some))
      (hacc.signerOutput_program.trans hacc.outputMint_program.symm)
      (h.thawed _ (by simp [Call.accounts]) _ hacc.signerOutput_some) hacc.signerOutput_owner
      (by simp [TokenIx.metas, Privileges.admits, hp, hacc.signer, hacc.signerOutput_mut,
        hacc.outputMint_mut]) hexec
    rw [← Ledger.spendable_of_some hacc.signerOutput_some] at hshort
    rw [Call.refusal, if_pos hshort]
  · -- after the burn only the vault can be short
    have hspend := le_spendable_of_burn hburn hacc.signerOutput_some hacc.signerOutput_owner
    have hvault : s.ledger.balance a.poolInputTokenVault < amount.toNat :=
      Nat.lt_of_not_le fun hle => hcovered ⟨hspend, hle⟩
    rw [Call.refusal, if_neg (Nat.not_lt.2 hspend), if_pos hvault]
    have hne : a.poolInputTokenVault ≠ a.signerOutputTokenVault :=
      associated_ne_of_wallet hacc.poolInput_key hacc.signerOutput_key
        (Pubkey.ne_of_not_isPool (isPool_of_eq hacc.pool_eq) (h.user _ rfl).1).symm
    have hkept : burned.accounts a.poolInputTokenVault = some vault :=
      (process_account_of_notMem rfl ((exec_eq_ok_iff ..).1 hburn).2
        (by simpa [TokenIx.accounts] using hne)).trans hacc.poolInput_some
    rw [Ledger.balance_of_some hacc.poolInput_some] at hvault
    exact congrArg some
      (guard_eq_error hkept (hacc.poolInput_program ▸ hacc.tokenProgram) hvault herror)
  · cases herror

theorem withdrawDelegatedStake_eq_error {a : WithdrawStakeAccounts}
    (h : Setting avsMints rt.programs p (.withdrawDelegatedStake a amount) s)
    (hacc : Call.Accepted p s (.withdrawDelegatedStake a amount))
    (hadm : ∀ m ∈ (Call.withdrawDelegatedStake a amount).demands, p.admits m = true)
    (herror : rt.execute p (.withdrawDelegatedStake a amount) s = .error e) :
    (Call.withdrawDelegatedStake a amount).refusal s = some e := by
  have hcovered := not_covered_of_eq_error h hacc hadm herror
  have hp : ∀ m ∈ (Call.withdrawDelegatedStake a amount).demands, p.available m.pubkey = true :=
    fun m hm => available_of_admits (hadm m hm)
  simp only [Call.demands, Call.metas, WithdrawStakeAccounts.metas, accountMeta, readonlyMeta,
    List.forall_mem_cons, List.not_mem_nil, false_imp_iff, implies_true, and_true] at hp
  obtain ⟨⟨self, start⟩, htry⟩ := hacc
  obtain ⟨im, vault, om, uo, r, am, av, pa, created, hacc, hinit, rfl⟩ :=
    (WithdrawStake.tryAccounts_eq_ok_iff ..).1 htry
  have hl := initIfNeeded_ledgerSound h.ledger hinit
  have huo := initIfNeeded_account_of_some hinit hacc.signerOutput_some
  have hom := (congrFun (initIfNeeded_mints hinit) _).trans hacc.outputMint_some
  change AdraLrt.withdrawDelegatedStake (rt.cx p) a amount s = .error e at herror
  simp only [AdraLrt.withdrawDelegatedStake, withdrawDelegatedStakeWith, bind_eq_error_iff,
    Prod.exists, WithdrawStake.burnOutputToken, tokenCpi_eq_ok_iff] at herror
  rcases herror with herror | ⟨self', start', hself, herror⟩
  · cases htry.symm.trans herror
  cases htry.symm.trans hself
  rcases herror with herror | ⟨_, ⟨burned, hburn, rfl⟩, herror⟩
  · -- the burn, on the ledger in which the input account was created
    obtain ⟨e', hexec, rfl⟩ := tokenCpi_eq_error herror
    change exec p a.tokenProgram (.burn a.signerOutputTokenVault a.outputTokenMint a.signer
      amount.toNat) start.ledger = .error e' at hexec
    rw [← hacc.outputMint_program] at hexec
    obtain ⟨rfl, hshort⟩ := exec_burn_eq_error hl.conserved huo hom
      (hl.associated _ _ _ uo (hacc.signerOutput_key ▸ huo))
      (hacc.signerOutput_program.trans hacc.outputMint_program.symm)
      (h.thawed _ (by simp [Call.accounts]) _ hacc.signerOutput_some) hacc.signerOutput_owner
      (by simp [TokenIx.metas, Privileges.admits, hp, hacc.signer, hacc.signerOutput_mut,
        hacc.outputMint_mut]) hexec
    rw [← Ledger.spendable_of_some hacc.signerOutput_some] at hshort
    rw [Call.refusal, if_pos hshort]
  -- after the burn only the AVS position can be short
  have hspend := le_spendable_of_burn hburn huo hacc.signerOutput_owner
  rw [Ledger.spendable_of_some huo, ← Ledger.spendable_of_some hacc.signerOutput_some] at hspend
  have hposition : s.ledger.balance a.poolAvsTokenVault < amount.toNat :=
    Nat.lt_of_not_le fun hle => hcovered ⟨hspend, hle⟩
  rw [Call.refusal, if_neg (Nat.not_lt.2 hspend), if_pos hposition]
  have hne : a.poolAvsTokenVault ≠ a.signerOutputTokenVault :=
    associated_ne_of_wallet hacc.poolAvs_key hacc.signerOutput_key
      (Pubkey.ne_of_not_isPool (isPool_of_eq hacc.pool_eq) (h.user _ rfl).1).symm
  have hkept : burned.accounts a.poolAvsTokenVault = some pa :=
    (process_account_of_notMem rfl ((exec_eq_ok_iff ..).1 hburn).2
      (by simpa [TokenIx.accounts] using hne)).trans
      (initIfNeeded_account_of_some hinit hacc.poolAvs_some)
  rw [Ledger.balance_of_some hacc.poolAvs_some] at hposition
  rcases herror with herror | ⟨self', s₂, hundelegated, -⟩
  · exact congrArg some
      (guard_eq_error hkept (hacc.poolAvs_program ▸ hacc.tokenProgram) hposition herror)
  · obtain ⟨w, hw, -, hguard, -⟩ := (WithdrawStake.undelegate_eq_ok_iff ..).1 hundelegated
    have hsame : pa = w := Option.some.inj (hkept.symm.trans hw)
    have hle : amount.toNat ≤ w.amount := hguard
    rw [← hsame] at hle
    omega

/-! ## Delegations -/

section Delegate

variable {a : DelegateAccounts}

/-- Whether the account for the AVS tokens is there or can be created does not depend on what the
records say. -/
theorem initIfNeeded_ok_congr {t t' : State} {payer k mint authority tokenProgram : Pubkey}
    {v : Loaded (TokenAccount Pubkey)} (hledger : s.ledger = t.ledger)
    (hpools : t.pools k = none → s.pools k = none)
    (h : initIfNeeded p payer k mint authority tokenProgram t = .ok (v, t')) :
    ∃ s', initIfNeeded p payer k mint authority tokenProgram s = .ok (v, s') := by
  obtain ⟨hw, hk, hv, hcases⟩ := (initIfNeeded_eq_ok_iff ..).1 h
  rcases hcases with ⟨-, hcases⟩ | ⟨hnone, hmint, hm, hfresh, -, hpayer, hr⟩
  · exact ⟨s, (initIfNeeded_eq_ok_iff ..).2 ⟨hw, hk, hv, Or.inl ⟨rfl, hledger ▸ hcases⟩⟩⟩
  · exact ⟨_, (initIfNeeded_eq_ok_iff ..).2
      ⟨hw, hk, hv, Or.inr ⟨hledger ▸ hnone, hledger ▸ hmint, hledger ▸ hm, hfresh, rfl,
        hpayer, hpools hr⟩⟩⟩

/-- The authority is checked last. -/
theorem delegate_tryAccounts_eq {r : LRTPool} {x : Delegate × State}
    (hr : s.pools a.pool = some r) (hne : r.delegateAuthority ≠ a.signer)
    (hacc : Delegate.tryAccounts p a (s.authorize a.pool a.signer) = .ok x) :
    Delegate.tryAccounts p a s = .error (.lrt .invalidDelegateAuthority) := by
  -- in the authorized state all checks pass, and none of them but the last reads the authority
  rw [State.authorize_of_some hr] at hacc
  obtain ⟨am, av, im, vault, r', created, hacc, hinit, -⟩ :=
    (Delegate.tryAccounts_eq_ok_iff ..).1 hacc
  have hr' : r' = { r with delegateAuthority := a.signer } := by
    have hpool := hacc.pool_some
    rw [State.setPool_pools, if_pos rfl] at hpool
    exact (Option.some.inj hpool).symm
  have hinput : a.inputTokenMint = r.inputTokenMint := hacc.inputMint_eq.trans (by rw [hr'])
  have hseeds : a.pool = poolAddress r.outputTokenMint r.bump :=
    hacc.pool_eq.trans (by rw [hr'])
  have hpools : (s.setPool a.pool { r with delegateAuthority := a.signer }).pools
      a.poolAvsTokenVault = none → s.pools a.poolAvsTokenVault = none := by
    intro hnone
    rw [State.setPool_pools] at hnone
    split at hnone
    · cases hnone
    · exact hnone
  obtain ⟨start, hstart⟩ :=
    initIfNeeded_ok_congr (State.setPool_ledger s a.pool _).symm hpools hinit
  have hok : ∀ {α β : Type} (y : α) (f : α → Except ProgramError β), (.ok y >>= f) = f y :=
    fun _ _ => rfl
  have htp := hacc.tokenProgram
  have hload_am : loadMint s a.avsTokenMint = .ok ⟨a.avsTokenMint, am⟩ :=
    (loadMint_eq_ok_iff ..).2 ⟨rfl, hacc.avsMint_some, hacc.avsMint_program⟩
  have hload_av : loadToken s a.avsInputTokenVault = .ok ⟨a.avsInputTokenVault, av⟩ :=
    (loadToken_eq_ok_iff ..).2 ⟨rfl, hacc.avsInput_some, hacc.avsInput_program⟩
  have hload_im : loadMint s a.inputTokenMint = .ok ⟨a.inputTokenMint, im⟩ :=
    (loadMint_eq_ok_iff ..).2 ⟨rfl, hacc.inputMint_some, hacc.inputMint_program ▸ htp⟩
  have hload_pv : loadToken s a.poolInputTokenVault = .ok ⟨a.poolInputTokenVault, vault⟩ :=
    (loadToken_eq_ok_iff ..).2 ⟨rfl, hacc.poolInput_some, hacc.poolInput_program ▸ htp⟩
  have hload_pool : loadPool s a.pool = .ok ⟨a.pool, r⟩ := (loadPool_eq_ok_iff ..).2 ⟨rfl, hr⟩
  have hmut : ∀ {k : Pubkey}, p.writable k = true → checkMut p k = .ok () :=
    fun h => (checkMut_eq_ok_iff ()).2 h
  have hsigner : checkSigner p a.signer = .ok () := (checkSigner_eq_ok_iff ()).2 hacc.signer
  have htoken : checkTokenInterface a.tokenProgram = .ok () :=
    (checkTokenInterface_eq_ok_iff ()).2 htp
  have hassociated : checkProgram a.associatedTokenProgram .associatedToken = .ok () :=
    (checkProgram_eq_ok_iff ..).2 hacc.associatedTokenProgram
  have hsystem : checkProgram a.systemProgram .system = .ok () :=
    (checkProgram_eq_ok_iff ..).2 hacc.systemProgram
  have hmint_am : checkMint ⟨a.avsTokenMint, am⟩
      ⟨some im.decimals, some a.avs, some a.avs, none⟩ = .ok () :=
    (checkMint_eq_ok_iff ..).2 ⟨by simpa using hacc.avsMint_decimals,
      by simpa using hacc.avsMint_authority, by simpa using hacc.avsMint_freeze, by simp⟩
  have hmint_im : checkMint ⟨a.inputTokenMint, im⟩ ⟨none, none, none, some a.tokenProgram⟩ =
      .ok () :=
    (checkMint_eq_ok_iff ..).2 ⟨by simp, by simp, by simp, by simpa using hacc.inputMint_program⟩
  have hassoc_av : checkAssociatedToken ⟨a.avsInputTokenVault, av⟩ a.inputTokenMint a.avs none =
      .ok () :=
    (checkAssociatedToken_eq_ok_iff ..).2 ⟨by simp, hacc.avsInput_owner, hacc.avsInput_key⟩
  have hassoc_pv : checkAssociatedToken ⟨a.poolInputTokenVault, vault⟩ a.inputTokenMint a.pool
      (some a.tokenProgram) = .ok () :=
    (checkAssociatedToken_eq_ok_iff ..).2
      ⟨by simpa using hacc.poolInput_program, hacc.poolInput_owner, hacc.poolInput_key⟩
  have haddress : checkAddress a.inputTokenMint r.inputTokenMint = .ok () :=
    (checkAddress_eq_ok_iff ..).2 hinput
  have hone : checkHasOne r.inputTokenMint a.inputTokenMint = .ok () :=
    (checkHasOne_eq_ok_iff ..).2 hinput.symm
  have hseed : checkSeeds a.pool r.outputTokenMint r.bump = .ok () :=
    (checkSeeds_eq_ok_iff ..).2 hseeds
  simp only [Delegate.tryAccounts, hsigner, hload_am, hload_av, hload_im, hload_pv, hload_pool,
    htoken, hassociated, hsystem, hstart, hmut hacc.signer_mut, hmut hacc.avs_mut,
    hmut hacc.avsMint_mut, hmut hacc.avsInput_mut, hmut hacc.inputMint_mut,
    hmut hacc.poolInput_mut, hmut hacc.pool_mut, hmint_am, hmint_im, hassoc_av, hassoc_pv,
    haddress, hone, hseed, hok]
  rw [require, if_neg hne]
  rfl

/-- Whoever is not the authority is told so, and nobody else fails a check. -/
theorem delegate_tryAccounts_eq_error
    (hacc : ∃ x, Delegate.tryAccounts p a (s.authorize a.pool a.signer) = .ok x)
    (herror : Delegate.tryAccounts p a s = .error e) :
    e = .lrt .invalidDelegateAuthority ∧
      (s.pools a.pool).map LRTPool.delegateAuthority ≠ some a.signer := by
  obtain ⟨x, hx⟩ := hacc
  cases hr : s.pools a.pool with
  | none =>
      -- without a record there is nothing to authorize
      have hsame : s.authorize a.pool a.signer = s := by simp [State.authorize, hr]
      rw [hsame, herror] at hx
      cases hx
  | some r =>
      rw [Option.map_some]
      by_cases hauth : r.delegateAuthority = a.signer
      · rw [← hauth, State.authorize_self hr, herror] at hx
        cases hx
      · cases (delegate_tryAccounts_eq hr hauth hx).symm.trans herror
        exact ⟨rfl, fun h => hauth (Option.some.inj h)⟩

theorem delegate_eq_error (h : Setting avsMints rt.programs p (.delegate a amount) s)
    (hacc : Call.Accepted p s (.delegate a amount))
    (hadm : ∀ m ∈ (Call.delegate a amount).demands, p.admits m = true)
    (herror : rt.execute p (.delegate a amount) s = .error e) :
    (Call.delegate a amount).refusal s = some e := by
  have hcovered := not_covered_of_eq_error h hacc hadm herror
  change AdraLrt.delegate (rt.cx p) a amount s = .error e at herror
  simp only [AdraLrt.delegate, bind_eq_error_iff, Prod.exists] at herror
  rcases herror with herror | ⟨self, start, htry, herror⟩
  · obtain ⟨rfl, hne⟩ := delegate_tryAccounts_eq_error hacc herror
    rw [Call.refusal, if_pos hne]
  obtain ⟨am, av, im, vault, r, created, hacc', hinit, rfl⟩ :=
    (Delegate.tryAccounts_eq_ok_iff ..).1 htry
  have hauth : (s.pools a.pool).map LRTPool.delegateAuthority = some a.signer := by
    rw [hacc'.pool_some, Option.map_some, hacc'.authority]
  have hvault : s.ledger.balance a.poolInputTokenVault < amount.toNat :=
    Nat.lt_of_not_le fun hle => hcovered ⟨hauth, hle⟩
  rw [Call.refusal, if_neg (not_not.2 hauth), if_pos hvault]
  rw [Ledger.balance_of_some hacc'.poolInput_some] at hvault
  have hstart := initIfNeeded_account_of_some hinit hacc'.poolInput_some
  rcases herror with herror | ⟨_, _, -, herror⟩
  · exact congrArg some
      (guard_eq_error hstart (hacc'.poolInput_program ▸ hacc'.tokenProgram) hvault herror)
  · cases herror

theorem undelegate_eq_error (h : Setting avsMints rt.programs p (.undelegate a amount) s)
    (hacc : Call.Accepted p s (.undelegate a amount))
    (hadm : ∀ m ∈ (Call.undelegate a amount).demands, p.admits m = true)
    (herror : rt.execute p (.undelegate a amount) s = .error e) :
    (Call.undelegate a amount).refusal s = some e := by
  have hcovered := not_covered_of_eq_error h hacc hadm herror
  change AdraLrt.undelegate (rt.cx p) a amount s = .error e at herror
  simp only [AdraLrt.undelegate, bind_eq_error_iff, Prod.exists] at herror
  rcases herror with herror | ⟨self, start, htry, herror⟩
  · obtain ⟨rfl, hne⟩ := delegate_tryAccounts_eq_error hacc herror
    rw [Call.refusal, if_pos hne]
  obtain ⟨am, av, im, vault, r, created, hacc', hinit, rfl⟩ :=
    (Delegate.tryAccounts_eq_ok_iff ..).1 htry
  have hauth : (s.pools a.pool).map LRTPool.delegateAuthority = some a.signer := by
    rw [hacc'.pool_some, Option.map_some, hacc'.authority]
  have hposition : s.ledger.balance a.poolAvsTokenVault < amount.toNat :=
    Nat.lt_of_not_le fun hle => hcovered ⟨hauth, hle⟩
  rw [Call.refusal, if_neg (not_not.2 hauth), if_pos hposition]
  -- a position that was just created is empty
  have hstart := initIfNeeded_account hinit
  rw [← initIfNeeded_balance hinit, Ledger.balance_of_some hstart] at hposition
  rcases herror with herror | ⟨_, _, -, herror⟩
  · exact congrArg some (guard_eq_error ((initIfNeeded_key hinit).symm ▸ hstart)
      (initIfNeeded_program hinit ▸ hacc'.tokenProgram) hposition herror)
  · cases herror

end Delegate

/-- The plain ledger refuses exactly what it does not cover. -/
theorem refusal_eq_none_iff (hc : c.Accepted p s) : c.refusal s = none ↔ c.Covered s := by
  cases c with
  | initializePool a limit => cases hc
  | transferDelegateAuthority a => cases hc
  | updateMintLimit a limit => cases hc
  | deposit a amount =>
      -- within the limit nothing overflows
      have hmax : limitOf a.pool s ≤ u64Max := by
        unfold limitOf
        split
        · exact Nat.le_of_lt_succ (UInt64.toNat_lt _)
        · exact Nat.zero_le _
      simp only [Call.refusal, Call.Covered]
      split_ifs <;> simp <;> omega
  | withdraw a amount =>
      simp only [Call.refusal, Call.Covered]
      split_ifs <;> simp <;> omega
  | withdrawDelegatedStake a amount =>
      simp only [Call.refusal, Call.Covered]
      split_ifs <;> simp <;> omega
  | delegate a amount =>
      simp only [Call.refusal, Call.Covered]
      by_cases hauth : (s.pools a.pool).map LRTPool.delegateAuthority = some a.signer
      · simp [hauth]
      · simp [hauth]
  | undelegate a amount =>
      simp only [Call.refusal, Call.Covered]
      by_cases hauth : (s.pools a.pool).map LRTPool.delegateAuthority = some a.signer
      · simp [hauth]
      · simp [hauth]

theorem refusal_of_eq_error (h : Setting avsMints rt.programs p c s) (hacc : c.Accepted p s)
    (hadm : ∀ m ∈ c.demands, p.admits m = true) (herror : rt.execute p c s = .error e) :
    c.refusal s = some e := by
  cases c with
  | initializePool a limit => cases hacc
  | transferDelegateAuthority a => cases hacc
  | updateMintLimit a limit => cases hacc
  | deposit a amount => exact deposit_eq_error h hacc hadm herror
  | withdraw a amount => exact withdraw_eq_error h hacc hadm herror
  | withdrawDelegatedStake a amount => exact withdrawDelegatedStake_eq_error h hacc hadm herror
  | delegate a amount => exact delegate_eq_error h hacc hadm herror
  | undelegate a amount => exact undelegate_eq_error h hacc hadm herror

end Outcome

/-- The plain ledger says what a refused caller is told. In the setting, on every accepted account
list with the privileges that the calls need, an instruction fails with an error if and only if this
is why the plain ledger refuses it. -/
theorem execute_eq_error_iff {avsMints : Finset Pubkey} {rt : Runtime} {p : Privileges Pubkey}
    {c : Call} {s : State} (h : Setting avsMints rt.programs p c s) (hacc : c.Accepted p s)
    (hadm : ∀ m ∈ c.demands, p.admits m = true) (e : ProgramError) :
    rt.execute p c s = .error e ↔ c.refusal s = some e := by
  constructor
  · exact refusal_of_eq_error h hacc hadm
  · intro hrefusal
    cases hresult : rt.execute p c s with
    | error e' =>
        have hrefusal' := refusal_of_eq_error h hacc hadm hresult
        rw [hrefusal] at hrefusal'
        rw [Option.some.inj hrefusal']
    | ok s' =>
        have hc : c.setsRecord = false := by
          cases c with
          | initializePool a limit => cases hacc
          | transferDelegateAuthority a => cases hacc
          | updateMintLimit a limit => cases hacc
          | _ => rfl
        have hnone := (refusal_eq_none_iff hacc).2 (execute_covered hresult hc)
        rw [hnone] at hrefusal
        cases hrefusal

namespace Sample

theorem operating_leaving :
    Setting registry.mints registry.programs (signedBy user) (.withdraw leaving 50) operating where
  ledger := operating_sound
  legacy m _ := program_ofLists (by decide) m
  thawed k _ := thawed_ofLists (by decide) k
  user := by
    rintro u ⟨⟩
    exact ⟨rfl, fun x program h => by cases h⟩
  honest := registry.honest.univ
  avs x program h := by cases h

/-- The user holds a hundred output tokens, but a withdrawal of fifty finds forty in the vault. -/
theorem vault_is_short :
    Runtime.execute ⟨findBump, registry.programs⟩ (signedBy user) (.withdraw leaving 50) operating =
      .error (.lrt .insufficientStakedSOLFundsForWithdraw) := by
  have hacc : Call.Accepted (signedBy user) operating (.withdraw leaving 50) := by
    obtain ⟨x, hx, -⟩ : ∃ x, Withdraw.tryAccounts (signedBy user) leaving operating = .ok x ∧
        true = true := exists_eq_ok (by decide)
    exact ⟨x, hx⟩
  exact (@execute_eq_error_iff registry.mints ⟨findBump, registry.programs⟩ _ _ _
    operating_leaving hacc (by decide) _).2 (by decide)

end Sample

end AdraLrt
