import AdraLrt.Enabled
import AdraLrt.Sample
import AdraLrt.TokenLedger.Frame

/-!
# A forced exit is an undelegation and a withdrawal

`withdraw_delegated_stake` burns the output tokens first and then undelegates; the route over two
transactions undelegates first. The burn and the exchange have nothing in common, so the order does
not matter (`exchange_burn_comm`). The account checks differ as well: `Delegate` wants the signature
of the delegate authority and creates the account for the AVS tokens where it is missing, `Withdraw`
wants the account for the input tokens to exist. Between soundly kept accounts nothing else is left
of the difference, and the two routes succeed together and end in the same state.
-/

set_option autoImplicit false

namespace AdraLrt

open TokenLedger Checked

/-- The accounts of the undelegation that a forced exit contains. -/
def WithdrawStakeAccounts.undelegation (a : WithdrawStakeAccounts) (signer : Pubkey) :
    DelegateAccounts where
  signer := signer
  avs := a.avs
  avsTokenMint := a.avsTokenMint
  avsInputTokenVault := a.avsInputTokenVault
  inputTokenMint := a.inputTokenMint
  poolInputTokenVault := a.poolInputTokenVault
  poolAvsTokenVault := a.poolAvsTokenVault
  pool := a.pool
  avsProgram := a.avsProgram
  tokenProgram := a.tokenProgram
  associatedTokenProgram := a.associatedTokenProgram
  systemProgram := a.systemProgram

/-- The accounts of the withdrawal that it contains. -/
def WithdrawStakeAccounts.withdrawal (a : WithdrawStakeAccounts) : WithdrawAccounts where
  signer := a.signer
  inputTokenMint := a.inputTokenMint
  signerInputTokenVault := a.signerInputTokenVault
  poolInputTokenVault := a.poolInputTokenVault
  outputTokenMint := a.outputTokenMint
  signerOutputTokenVault := a.signerOutputTokenVault
  pool := a.pool
  associatedTokenProgram := a.associatedTokenProgram
  tokenProgram := a.tokenProgram
  systemProgram := a.systemProgram

/-- An AVS program that carries out an undelegation of some amount does so whenever the token
program lets it. -/
def Steadfast (programs : Programs) : Prop :=
  ∀ x avsProgram amount s l cs, AvsRun programs x avsProgram .undelegate amount s l cs →
    ∀ (t : State) l',
      execAll (x.privileges avsProgram) (x.exchange amount.toNat .undelegate) t.ledger = .ok l' →
      ∃ cs', AvsRun programs x avsProgram .undelegate amount t l' cs'

theorem Registry.steadfast (R : Registry) : Steadfast R.programs := by
  intro x avsProgram amount s l cs h t l' hl'
  have htp : isTokenInterface x.tokenProgram = true := by
    obtain ⟨-, rfl⟩ := Registry.programs_eq_some_iff.1 h.programs_eq
    exact (h.tokenPrograms (x.tokenProgram, .burn x.poolAvsTokenVault x.avsTokenMint x.pool
      amount.toNat) List.mem_cons_self).1
  exact ⟨_, Registry.avsRun_of_serves (Registry.serves_of_avsRun h).1 htp hl'⟩

section Routes

variable {findBump : Pubkey → UInt8} {programs : Programs} {a : WithdrawStakeAccounts}
  {amount : UInt64} {p : Privileges Pubkey} {signer : Pubkey} {s : State} {l : Ledger Pubkey}
  {r : LRTPool} {im om avsMint : Mint Pubkey}
  {ui vault uo avsInput poolAvs : TokenAccount Pubkey}

/-- The burn of the user's tokens can be moved past the exchange. -/
theorem exchange_burn_comm {q : Privileges Pubkey} {x : AvsAccounts} {n k : Nat}
    {source mint owner program : Pubkey} {l' : Ledger Pubkey} (hpa : source ≠ x.poolAvsTokenVault)
    (hav : source ≠ x.avsInputTokenVault) (hpi : source ≠ x.poolInputTokenVault)
    (hmint : mint ≠ x.avsTokenMint) :
    (∃ m, exec p program (.burn source mint owner k) l = .ok m ∧
      execAll q (x.exchange n .undelegate) m = .ok l') ↔
    ∃ m, execAll q (x.exchange n .undelegate) l = .ok m ∧
      exec p program (.burn source mint owner k) m = .ok l' := by
  refine exec_execAll_comm rfl fun c hc => ⟨exchange_movesFunds x n .undelegate c hc, ?_⟩
  simp only [AvsAccounts.exchange, List.mem_cons, List.not_mem_nil, or_false] at hc
  rcases hc with rfl | rfl
  · refine ⟨?_, ?_⟩
    · simpa [TokenIx.accounts] using hpa
    · simpa [TokenIx.supplies] using hmint
  · refine ⟨?_, ?_⟩
    · simpa [TokenIx.accounts] using ⟨hav, hpi⟩
    · simp [TokenIx.supplies]

/-! ## The checks of the two routes -/

theorem WithdrawStake.Accepted.undelegation
    (h : WithdrawStake.Accepted p a s im vault om uo r avsMint avsInput poolAvs)
    (htoken : a.tokenProgram = .program .token) :
    Delegate.Accepted (transaction (a.undelegation r.delegateAuthority).metas)
      (a.undelegation r.delegateAuthority) s avsMint avsInput im vault r where
  signer := by simp [transaction, DelegateAccounts.metas, accountMeta]
  signer_mut := by simp [transaction, DelegateAccounts.metas, accountMeta]
  pool_mut := by simp [transaction, DelegateAccounts.metas, accountMeta]
  avs_mut := by simp [transaction, DelegateAccounts.metas, accountMeta]
  avsMint_mut := by simp [transaction, DelegateAccounts.metas, accountMeta]
  avsInput_mut := by simp [transaction, DelegateAccounts.metas, accountMeta]
  inputMint_mut := by simp [transaction, DelegateAccounts.metas, accountMeta]
  poolInput_mut := by simp [transaction, DelegateAccounts.metas, accountMeta]
  tokenProgram := h.tokenProgram
  associatedTokenProgram := h.associatedTokenProgram
  systemProgram := h.systemProgram
  pool_some := h.pool_some
  pool_eq := h.outputMint_eq ▸ h.pool_eq
  authority := rfl
  inputMint_eq := h.inputMint_eq
  inputMint_some := h.inputMint_some
  inputMint_program := h.inputMint_program
  poolInput_some := h.poolInput_some
  poolInput_key := h.poolInput_key
  poolInput_owner := h.poolInput_owner
  poolInput_program := h.poolInput_program
  avsMint_some := h.avsMint_some
  avsMint_program := h.avsMint_program.symm ▸ h.tokenProgram
  avsMint_authority := h.avsMint_authority
  avsMint_freeze := h.avsMint_freeze
  avsMint_decimals := h.avsMint_decimals
  avsInput_some := h.avsInput_some
  avsInput_key := htoken ▸ h.avsInput_key
  avsInput_owner := h.avsInput_owner
  avsInput_program := h.avsInput_program.symm ▸ h.tokenProgram

/-- After the exchange the withdrawal is accepted. -/
theorem WithdrawStake.Accepted.withdrawal
    (h : WithdrawStake.Accepted p a s im vault om uo r avsMint avsInput poolAvs)
    (hdecimals : om.decimals = im.decimals)
    (hui : s.ledger.accounts a.signerInputTokenVault = some ui)
    (hui_key : a.signerInputTokenVault =
      getAssociatedTokenAddress a.signer a.tokenProgram a.inputTokenMint)
    (hui_owner : ui.owner = a.signer) (hui_program : ui.program = a.tokenProgram)
    (hmoved : FundsMoved s.ledger l) :
    ∃ n ui' vault' m uo', Withdraw.Accepted (transaction a.withdrawal.metas) a.withdrawal
      { s with ledger := l } (im.withSupply n) ui' vault' (om.withSupply m) uo' r := by
  obtain ⟨n, him⟩ := hmoved.some_mint _ im h.inputMint_some
  obtain ⟨m, hom⟩ := hmoved.some_mint _ om h.outputMint_some
  obtain ⟨ui', hui', hui_terms⟩ := hmoved.some_account _ ui hui
  obtain ⟨vault', hvault', hvault_terms⟩ := hmoved.some_account _ vault h.poolInput_some
  obtain ⟨uo', huo', huo_terms⟩ := hmoved.some_account _ uo h.signerOutput_some
  refine ⟨n, ui', vault', m, uo', ?_⟩
  exact {
    signer := by simp [transaction, WithdrawAccounts.metas, accountMeta]
    signer_mut := by simp [transaction, WithdrawAccounts.metas, accountMeta]
    pool_mut := by simp [transaction, WithdrawAccounts.metas, accountMeta]
    inputMint_mut := by simp [transaction, WithdrawAccounts.metas, accountMeta]
    signerInput_mut := by simp [transaction, WithdrawAccounts.metas, accountMeta]
    poolInput_mut := by simp [transaction, WithdrawAccounts.metas, accountMeta]
    outputMint_mut := by simp [transaction, WithdrawAccounts.metas, accountMeta]
    signerOutput_mut := by simp [transaction, WithdrawAccounts.metas, accountMeta]
    tokenProgram := h.tokenProgram
    associatedTokenProgram := h.associatedTokenProgram
    systemProgram := h.systemProgram
    pool_some := h.pool_some
    pool_eq := h.pool_eq
    inputMint_eq := h.inputMint_eq
    outputMint_eq := h.outputMint_eq
    inputMint_some := him
    inputMint_program := h.inputMint_program
    outputMint_some := hom
    outputMint_program := h.outputMint_program
    outputMint_authority := h.outputMint_authority
    outputMint_freeze := h.outputMint_freeze
    outputMint_decimals := hdecimals
    signerInput_some := hui'
    signerInput_key := hui_key
    signerInput_owner := hui_terms.owner.trans hui_owner
    signerInput_program := hui_terms.program.trans hui_program
    poolInput_some := hvault'
    poolInput_key := h.poolInput_key
    poolInput_owner := hvault_terms.owner.trans h.poolInput_owner
    poolInput_program := hvault_terms.program.trans h.poolInput_program
    signerOutput_some := huo'
    signerOutput_key := h.signerOutput_key
    signerOutput_owner := huo_terms.owner.trans h.signerOutput_owner
    signerOutput_program := huo_terms.program.trans h.signerOutput_program }

/-- What the two instructions check together is what the forced exit checks. -/
theorem WithdrawStake.accepted_of_routes {im' om' : Mint Pubkey}
    {ui' vault' uo' : TokenAccount Pubkey} {r' : LRTPool} {q : Privileges Pubkey}
    (hd : Delegate.Accepted q (a.undelegation signer) s avsMint avsInput im vault r)
    (hw : Withdraw.Accepted p a.withdrawal { s with ledger := l } im' ui' vault' om' uo' r')
    (hmoved : FundsMoved s.ledger l) (hl : LedgerSound s.ledger)
    (htoken : a.tokenProgram = .program .token)
    (hpa : s.ledger.accounts a.poolAvsTokenVault = some poolAvs)
    (hpa_key : a.poolAvsTokenVault =
      getAssociatedTokenAddress a.pool a.tokenProgram a.avsTokenMint)
    (hpa_owner : poolAvs.owner = a.pool) (hpa_program : poolAvs.program = a.tokenProgram) :
    ∃ om uo, WithdrawStake.Accepted (transaction a.metas) a s im vault om uo r avsMint avsInput
      poolAvs := by
  obtain ⟨om, m, hom, rfl⟩ := hmoved.mint_of_some hw.outputMint_some
  obtain ⟨uo, huo, huo_terms⟩ := hmoved.account_of_some hw.signerOutput_some
  obtain rfl : r = r' := Option.some.inj (hd.pool_some.symm.trans hw.pool_some)
  -- the pool's account ties the AVS mint to the token program, which `Delegate` does not check
  have hpa_mint := hl.associated _ _ _ poolAvs (hpa_key ▸ hpa)
  obtain ⟨am, ham, ham_program⟩ := hl.mint_some _ poolAvs hpa
  obtain rfl : avsMint = am := by
    rw [hpa_mint] at ham
    exact Option.some.inj (hd.avsMint_some.symm.trans ham)
  -- the derivation in `Delegate` is the one under the legacy program
  have hav_key : a.avsInputTokenVault =
      getAssociatedTokenAddress a.avs a.tokenProgram a.inputTokenMint :=
    htoken.symm ▸ hd.avsInput_key
  have hav : s.ledger.accounts a.avsInputTokenVault = some avsInput := hd.avsInput_some
  refine ⟨om, uo, ?_⟩
  exact {
    signer := by simp [transaction, WithdrawStakeAccounts.metas, accountMeta]
    signer_mut := by simp [transaction, WithdrawStakeAccounts.metas, accountMeta]
    pool_mut := by simp [transaction, WithdrawStakeAccounts.metas, accountMeta]
    inputMint_mut := by simp [transaction, WithdrawStakeAccounts.metas, accountMeta]
    poolInput_mut := by simp [transaction, WithdrawStakeAccounts.metas, accountMeta]
    outputMint_mut := by simp [transaction, WithdrawStakeAccounts.metas, accountMeta]
    signerOutput_mut := by simp [transaction, WithdrawStakeAccounts.metas, accountMeta]
    avs_mut := by simp [transaction, WithdrawStakeAccounts.metas, accountMeta]
    avsMint_mut := by simp [transaction, WithdrawStakeAccounts.metas, accountMeta]
    avsInput_mut := by simp [transaction, WithdrawStakeAccounts.metas, accountMeta]
    poolAvs_mut := by simp [transaction, WithdrawStakeAccounts.metas, accountMeta]
    tokenProgram := hd.tokenProgram
    associatedTokenProgram := hd.associatedTokenProgram
    systemProgram := hd.systemProgram
    pool_some := hd.pool_some
    pool_eq := hw.pool_eq
    inputMint_eq := hd.inputMint_eq
    outputMint_eq := hw.outputMint_eq
    inputMint_some := hd.inputMint_some
    inputMint_program := hd.inputMint_program
    outputMint_some := hom
    outputMint_program := hw.outputMint_program
    outputMint_authority := hw.outputMint_authority
    outputMint_freeze := hw.outputMint_freeze
    poolInput_some := hd.poolInput_some
    poolInput_key := hd.poolInput_key
    poolInput_owner := hd.poolInput_owner
    poolInput_program := hd.poolInput_program
    signerOutput_some := huo
    signerOutput_key := hw.signerOutput_key
    signerOutput_owner := huo_terms.owner.symm.trans hw.signerOutput_owner
    signerOutput_program := huo_terms.program.symm.trans hw.signerOutput_program
    avsMint_some := hd.avsMint_some
    avsMint_program := ham_program.trans hpa_program
    avsMint_authority := hd.avsMint_authority
    avsMint_freeze := hd.avsMint_freeze
    avsMint_decimals := hd.avsMint_decimals
    avsInput_some := hd.avsInput_some
    avsInput_key := hav_key
    avsInput_owner := hd.avsInput_owner
    avsInput_program := hl.program _ _ _ avsInput (hav_key ▸ hav)
    poolAvs_some := hpa
    poolAvs_key := hpa_key
    poolAvs_owner := hpa_owner
    poolAvs_program := hpa_program }

/-! ## The two routes -/

/-- Where the forced exit succeeds, so do the two transactions, with the same end. -/
theorem routes_of_withdrawDelegatedStake {avss : Set Pubkey} {avsMints : Finset Pubkey} {s' : State}
    {tokenProgram : Pubkey} (hl : LedgerSound s.ledger)
    (hpool : PoolSound s.ledger tokenProgram a.pool r.inputTokenMint r.outputTokenMint)
    (hh : HonestPrograms avss avsMints programs) (hsteadfast : Steadfast programs)
    (htoken : a.tokenProgram = .program .token) (huser : a.signer.isPool = false)
    (havs : a.signer ∉ avss) (hr : s.pools a.pool = some r)
    (hui : s.ledger.accounts
      (getAssociatedTokenAddress a.signer a.tokenProgram a.inputTokenMint) ≠ none)
    (h : Runtime.execute ⟨findBump, programs⟩ (transaction a.metas)
      (.withdrawDelegatedStake a amount) s = .ok s') :
    Runtime.submit ⟨findBump, programs⟩ [.undelegate (a.undelegation r.delegateAuthority) amount,
      .withdraw a.withdrawal amount] s = .ok s' := by
  obtain ⟨d, rfl⟩ := (execute_withdrawDelegatedStake_iff ..).1 h
  have hacc := d.accepted
  obtain rfl := Option.some.inj (hr.symm.trans hacc.pool_some)
  obtain ⟨havs_pool, havs_mem, -, hex⟩ := hh _ _ _ _ _ _ _ d.avs
  obtain ⟨hpa, hav, hpi, hmint⟩ := hacc.apart
    (Pubkey.ne_of_not_isPool (isPool_of_eq hacc.pool_eq) huser)
    (ne_of_mem_of_not_mem havs_mem havs).symm havs_pool
  obtain ⟨-, hui_key, -, ⟨hstart, hui_some, -, hui_owner, hui_program⟩ | ⟨hnone, -⟩⟩ :=
    (initIfNeeded_eq_ok_iff ..).1 d.init_eq
  swap
  · rw [hui_key] at hnone
    exact (hui hnone).elim
  have hburn := d.burn_eq
  rw [hstart] at hburn
  obtain ⟨l, hl_exchange, hl_burn⟩ := (exchange_burn_comm hpa hav hpi hmint).1 ⟨_, hburn, hex⟩
  obtain ⟨cs, hrun⟩ := hsteadfast _ _ _ _ _ _ d.avs s l hl_exchange
  -- the balance that the guard reads after the burn is the one before it
  have hpa_now : d.poolAvsNow = d.poolAvs := by
    have hkept := process_account_of_notMem rfl ((exec_eq_ok_iff ..).1 hburn).2
      (show a.poolAvsTokenVault ∉ [a.signerOutputTokenVault] by simpa using hpa.symm)
    exact Option.some.inj
      (d.poolAvsNow_some.symm.trans (hkept.trans hacc.poolAvs_some))
  have hpa_mint := hl.associated _ _ _ d.poolAvs (hacc.poolAvs_key ▸ hacc.poolAvs_some)
  have hundelegate : Runtime.execute ⟨findBump, programs⟩
      (transaction (Call.undelegate (a.undelegation d.record.delegateAuthority) amount).metas)
      (.undelegate (a.undelegation d.record.delegateAuthority) amount) s =
        .ok { s with ledger := l } := by
    refine (execute_undelegate_iff ..).2 ⟨⟨d.avsMint, d.avsInput, d.inputMint, d.poolInput,
      d.record, ⟨a.poolAvsTokenVault, d.poolAvs⟩, s, cs, l, hacc.undelegation htoken, ?_, ?_, hrun⟩,
      ?_, rfl⟩
    · refine (initIfNeeded_eq_ok_iff ..).2 ⟨?_, hacc.poolAvs_key, rfl, Or.inl ⟨rfl,
        hacc.poolAvs_some, hpa_mint, hacc.poolAvs_owner, hacc.poolAvs_program⟩⟩
      simp [transaction, Call.metas, DelegateAccounts.metas, accountMeta,
        WithdrawStakeAccounts.undelegation]
    · simp [transaction, Call.metas, DelegateAccounts.metas, accountMeta, readonlyMeta,
        WithdrawStakeAccounts.undelegation, DelegateAccounts.avsAccounts, AvsAccounts.metas,
        Privileges.admits]
    · have hguard := d.avsGuard
      rw [hpa_now] at hguard
      exact hguard
  -- then the withdrawal, which compares the decimals of the two mints, unlike the forced exit
  have hdecimals : d.outputMint.decimals = d.inputMint.decimals := by
    obtain ⟨im, om, him, -, hom, -, -, -, hd⟩ := hpool.mints
    obtain rfl := Option.some.inj (him.symm.trans (hacc.inputMint_eq ▸ hacc.inputMint_some))
    obtain rfl := Option.some.inj (hom.symm.trans (hacc.outputMint_eq ▸ hacc.outputMint_some))
    exact hd
  have hmoved := execAll_fundsMoved (exchange_movesFunds _ _ _) hl_exchange
  obtain ⟨n, ui', vault', m, uo', hacc'⟩ :=
    hacc.withdrawal hdecimals hui_some hui_key hui_owner hui_program hmoved
  have hwithdraw : Runtime.execute ⟨findBump, programs⟩
      (transaction (Call.withdraw a.withdrawal amount).metas)
      (.withdraw a.withdrawal amount) { s with ledger := l } = .ok { s with ledger := d.paid } := by
    refine (execute_withdraw_iff ..).2 ⟨⟨_, ui', vault', _, uo', d.record, d.undelegated, d.vault,
      d.paid, hacc', ?_, d.vault_some, d.vault_program, d.guard, ?_⟩, rfl⟩
    · refine (exec_eq_ok_iff ..).2 ⟨?_, ((exec_eq_ok_iff ..).1 hl_burn).2⟩
      simp [transaction, Call.metas, WithdrawAccounts.metas, accountMeta, readonlyMeta,
        WithdrawStakeAccounts.withdrawal, TokenIx.metas, Privileges.admits]
    · refine (exec_eq_ok_iff ..).2 ⟨?_, ((exec_eq_ok_iff ..).1 d.pay_eq).2⟩
      simp [transaction, Call.metas, WithdrawAccounts.metas, accountMeta, readonlyMeta,
        WithdrawStakeAccounts.withdrawal, TokenIx.metas, Privileges.admits]
  exact (Runtime.submit_pair_iff ..).2 ⟨_, hundelegate, hwithdraw⟩

/-- Where the two transactions succeed, so does the forced exit, unless it is one of nothing for
which the account for the AVS tokens had to be created. -/
theorem withdrawDelegatedStake_of_routes {avss : Set Pubkey} {avsMints : Finset Pubkey} {s' : State}
    (hl : LedgerSound s.ledger) (hh : HonestPrograms avss avsMints programs)
    (hsteadfast : Steadfast programs) (htoken : a.tokenProgram = .program .token)
    (huser : a.signer.isPool = false) (havs : a.signer ∉ avss)
    (hpos : s.ledger.accounts a.poolAvsTokenVault ≠ none ∨ amount ≠ 0)
    (h : Runtime.submit ⟨findBump, programs⟩ [.undelegate (a.undelegation signer) amount,
      .withdraw a.withdrawal amount] s = .ok s') :
    Runtime.execute ⟨findBump, programs⟩ (transaction a.metas) (.withdrawDelegatedStake a amount)
      s = .ok s' := by
  obtain ⟨s₁, h₁, h₂⟩ := (Runtime.submit_pair_iff ..).1 h
  obtain ⟨d, hguard, rfl⟩ := (execute_undelegate_iff ..).1 h₁
  obtain ⟨e, rfl⟩ := (execute_withdraw_iff ..).1 h₂
  -- the account for the AVS tokens was there before
  obtain ⟨-, hpa_key, -, ⟨hstart, hpa, hpa_mint, hpa_owner, hpa_program⟩ |
    ⟨hnone, -, -, hfresh, -⟩⟩ := (initIfNeeded_eq_ok_iff ..).1 d.init_eq
  swap
  · -- a created account is empty, so only an undelegation of nothing passes its guard
    rw [hfresh] at hguard
    rcases hpos with hpos | hpos
    · exact (hpos hnone).elim
    · exact (hpos (UInt64.toNat_inj.1 (Nat.le_zero.1 hguard))).elim
  have hrun := d.avs
  rw [hstart] at hrun
  obtain ⟨havs_pool, havs_mem, -, hex⟩ := hh _ _ _ _ _ _ _ hrun
  have hmoved := execAll_fundsMoved (exchange_movesFunds _ _ _) hex
  obtain ⟨om, uo, hacc⟩ := WithdrawStake.accepted_of_routes d.accepted e.accepted hmoved hl htoken
    hpa hpa_key hpa_owner hpa_program
  obtain ⟨hne_pa, hne_av, hne_pi, hmint⟩ := hacc.apart
    (Pubkey.ne_of_not_isPool (isPool_of_eq hacc.pool_eq) huser)
    (ne_of_mem_of_not_mem havs_mem havs).symm havs_pool
  have hburn : exec (transaction a.metas) a.tokenProgram (.burn a.signerOutputTokenVault
      a.outputTokenMint a.signer amount.toNat) d.exchanged = .ok e.burned := by
    refine (exec_eq_ok_iff ..).2 ⟨?_, ((exec_eq_ok_iff ..).1 e.burn_eq).2⟩
    simp [transaction, WithdrawStakeAccounts.metas, accountMeta, readonlyMeta, TokenIx.metas,
      Privileges.admits]
  obtain ⟨l₁, hl_burn, hl_exchange⟩ :=
    (exchange_burn_comm hne_pa hne_av hne_pi hmint).2 ⟨_, hex, hburn⟩
  obtain ⟨cs, hrun'⟩ := hsteadfast _ _ _ _ _ _ hrun { s with ledger := l₁ } _ hl_exchange
  have hpa_kept := process_account_of_notMem rfl ((exec_eq_ok_iff ..).1 hl_burn).2
    (show a.poolAvsTokenVault ∉ [a.signerOutputTokenVault] by simpa using hne_pa.symm)
  obtain ⟨ui, hui, hui_terms⟩ := hmoved.account_of_some e.accepted.signerInput_some
  have hui_mint := hl.associated _ _ _ ui (e.accepted.signerInput_key ▸ hui)
  have hinit : initIfNeeded (transaction a.metas) a.signer a.signerInputTokenVault
      a.inputTokenMint a.signer a.tokenProgram s = .ok (⟨a.signerInputTokenVault, ui⟩, s) := by
    refine (initIfNeeded_eq_ok_iff ..).2 ⟨?_, e.accepted.signerInput_key, rfl, Or.inl ⟨rfl, hui,
      hui_mint, hui_terms.owner.symm.trans e.accepted.signerInput_owner,
      hui_terms.program.symm.trans e.accepted.signerInput_program⟩⟩
    simp [transaction, WithdrawStakeAccounts.metas, accountMeta]
  obtain ⟨im, n, him, heq⟩ := hmoved.mint_of_some e.accepted.inputMint_some
  refine (execute_withdrawDelegatedStake_iff ..).2 ⟨⟨d.inputMint, d.poolInput, om, uo, d.record,
    d.avsMint, d.avsInput, d.created.account, _, s, l₁, d.created.account, cs, e.burned, e.vault,
    e.paid, hacc, hinit, hl_burn, hpa_kept.trans hpa, hpa_program.symm ▸ hacc.tokenProgram, hguard,
    ?_, hrun', e.vault_some, e.vault_program, e.guard, ?_⟩, rfl⟩
  · simp [transaction, WithdrawStakeAccounts.metas, accountMeta, readonlyMeta,
      WithdrawStakeAccounts.avsAccounts, AvsAccounts.metas, Privileges.admits]
  · refine (exec_eq_ok_iff ..).2 ⟨?_, ?_⟩
    · simp [transaction, WithdrawStakeAccounts.metas, accountMeta, readonlyMeta, TokenIx.metas,
        Privileges.admits]
    · -- the decimals that the transfer names are those read before the burn or after it
      have hpay := ((exec_eq_ok_iff ..).1 e.pay_eq).2
      obtain rfl := Option.some.inj (him.symm.trans hacc.inputMint_some)
      rw [heq] at hpay
      exact hpay

end Routes

/-- The forced exit is exactly the undelegation followed by the withdrawal. In every state reached
from a sound deployment, whoever signed, a forced exit of a user with an account for the input
tokens, at an honest AVS and under the legacy token program, succeeds if and only if the two
transactions on the same accounts do, and with the same end, provided the pool has an account for
the AVS tokens or the amount is not zero. -/
theorem withdrawDelegatedStake_iff_routes {findBump : Pubkey → UInt8} {avss : Set Pubkey}
    {avsMints : Finset Pubkey} {l : Ledger Pubkey} {as : List Action} {programs : Programs}
    {a : WithdrawStakeAccounts}
    {amount : UInt64} {r : LRTPool} {s' : State} (hl : LedgerSound l)
    (has : ∀ x ∈ as, x.FromOutside ∧ x.Uses FundsOnly) (hh : HonestPrograms avss avsMints programs)
    (hsteadfast : Steadfast programs) (htoken : a.tokenProgram = .program .token)
    (huser : a.signer.isPool = false) (havs : a.signer ∉ avss)
    (hr : (run findBump (deployed l) as).pools a.pool = some r)
    (hui : (run findBump (deployed l) as).ledger.accounts
      (getAssociatedTokenAddress a.signer a.tokenProgram a.inputTokenMint) ≠ none)
    (hpos : (run findBump (deployed l) as).ledger.accounts a.poolAvsTokenVault ≠ none ∨
      amount ≠ 0) :
    Runtime.execute ⟨findBump, programs⟩ (transaction a.metas) (.withdrawDelegatedStake a amount)
        (run findBump (deployed l) as) = .ok s' ↔
      Runtime.submit ⟨findBump, programs⟩ [.undelegate (a.undelegation r.delegateAuthority) amount,
        .withdraw a.withdrawal amount] (run findBump (deployed l) as) = .ok s' := by
  have hs := run_sound has (sound_deployed findBump hl)
  obtain ⟨tokenProgram, hpool⟩ := hs.pools a.pool r hr
  constructor
  · exact routes_of_withdrawDelegatedStake hs.ledger hpool hh hsteadfast htoken huser havs hr hui
  · exact withdrawDelegatedStake_of_routes hs.ledger hh hsteadfast htoken huser havs hpos

namespace Sample

/-- At the end of its history the user can take twenty tokens out on either route. -/
theorem exit_routes : ∃ s',
    Runtime.execute ⟨findBump, registry.programs⟩ (transaction exit.metas)
      (.withdrawDelegatedStake exit 20) (run findBump (deployed ledger) lifetime) = .ok s' ∧
    Runtime.submit ⟨findBump, registry.programs⟩ [.undelegate (exit.undelegation authority) 20,
      .withdraw exit.withdrawal 20] (run findBump (deployed ledger) lifetime) = .ok s' := by
  have hfunds : ∀ x ∈ lifetime, x.FromOutside ∧ x.Uses FundsOnly := by
    intro x hx
    obtain ⟨hp, -, hu⟩ := lifetime_uses x hx
    refine ⟨hp, hu.mono ?_⟩
    rintro programs rfl
    exact registry.honest.fundsOnly
  have hrecord : (run findBump (deployed ledger) lifetime).pools exit.pool = some (record 1000) :=
    rfl
  obtain ⟨s', h, -⟩ : ∃ s', Runtime.execute ⟨findBump, registry.programs⟩ (transaction exit.metas)
      (.withdrawDelegatedStake exit 20) (run findBump (deployed ledger) lifetime) = .ok s' ∧
      true = true := exists_eq_ok (by decide)
  exact ⟨s', h, (withdrawDelegatedStake_iff_routes ledger_sound hfunds registry.honest
    registry.steadfast rfl rfl user_apart hrecord (by decide) (Or.inr (by decide))).1 h⟩

/-- Before the pool has an account for the AVS tokens, a forced exit of nothing fails, although the
user has both accounts and the two transactions succeed. -/
theorem exit_of_nothing_fails :
    (run findBump (deployed ledger) [initialization 1000, deposit 10]).ledger.accounts
        exit.signerInputTokenVault ≠ none ∧
      (run findBump (deployed ledger) [initialization 1000, deposit 10]).ledger.accounts
        exit.signerOutputTokenVault ≠ none ∧
      ¬ ∀ s', Runtime.execute ⟨findBump, registry.programs⟩ (transaction exit.metas)
        (.withdrawDelegatedStake exit 0)
        (run findBump (deployed ledger) [initialization 1000, deposit 10]) = .ok s' ↔
      Runtime.submit ⟨findBump, registry.programs⟩ [.undelegate (exit.undelegation authority) 0,
        .withdraw exit.withdrawal 0]
        (run findBump (deployed ledger) [initialization 1000, deposit 10]) = .ok s' := by
  refine ⟨by decide, by decide, fun hroutes => ?_⟩
  obtain ⟨s', h, -⟩ : ∃ s', Runtime.submit ⟨findBump, registry.programs⟩
      [.undelegate (exit.undelegation authority) 0, .withdraw exit.withdrawal 0]
      (run findBump (deployed ledger) [initialization 1000, deposit 10]) = .ok s' ∧
      true = true := exists_eq_ok (by decide)
  have hexit := (hroutes s').2 h
  have hfails : (Runtime.execute ⟨findBump, registry.programs⟩ (transaction exit.metas)
      (.withdrawDelegatedStake exit 0)
      (run findBump (deployed ledger) [initialization 1000, deposit 10])).toOption.isSome =
        false := by
    decide
  rw [hexit] at hfails
  cases hfails

end Sample

end AdraLrt
