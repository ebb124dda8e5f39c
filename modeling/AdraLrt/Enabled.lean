import AdraLrt.Backing
import AdraLrt.Client
import AdraLrt.TokenLedger.Success

/-!
# Withdrawals that succeed

Enough for a withdrawal or a forced exit to succeed, on an accepted account list in a sound ledger:
the accounts involved are not frozen, the funds suffice and, for the forced exit, the AVS program
honours the call. Everything else that the token program asks for follows from the checks.
-/

set_option autoImplicit false

namespace AdraLrt

open TokenLedger Checked

section Privileges

theorem transaction_admits {metas : List (AccountMeta Pubkey)} {m : AccountMeta Pubkey}
    (h : m ∈ metas) : (transaction metas).admits m = true := by
  have ha := transaction_available h
  have hs := fun hs => transaction_signer h hs
  have hw := fun hw => transaction_writable h hw
  cases hms : m.isSigner with
  | false =>
      cases hmw : m.isWritable with
      | false => simp [Privileges.admits, ha, hms, hmw]
      | true => simp [Privileges.admits, ha, hms, hmw, hw hmw]
  | true =>
      cases hmw : m.isWritable with
      | false => simp [Privileges.admits, ha, hms, hmw, hs hms]
      | true => simp [Privileges.admits, ha, hms, hmw, hs hms, hw hmw]

end Privileges

section Exchange

variable {x : AvsAccounts} {avsProgram : Pubkey} {l : Ledger Pubkey} {am im : Mint Pubkey}
  {av pv pa : TokenAccount Pubkey} {n : Nat}

/-- The accounts of a call to an AVS program are those of its exchange: the AVS is the program's own
and the authority of its mint, the token accounts are associated and none is frozen. -/
structure AvsAccounts.Ready (x : AvsAccounts) (avsProgram : Pubkey) (l : Ledger Pubkey)
    (am im : Mint Pubkey) (av pv pa : TokenAccount Pubkey) : Prop where
  controls : avsProgram.controls x.avs = true
  isPool : x.pool.isPool = true
  mints_ne : x.inputTokenMint ≠ x.avsTokenMint
  avsMint_some : l.mints x.avsTokenMint = some am
  avsMint_program : am.program = x.tokenProgram
  avsMint_authority : am.mintAuthority = some x.avs
  inputMint_some : l.mints x.inputTokenMint = some im
  inputMint_program : im.program = x.tokenProgram
  inputMint_fee : im.transferFee = none
  avsInput_key : x.avsInputTokenVault =
    getAssociatedTokenAddress x.avs x.tokenProgram x.inputTokenMint
  avsInput_some : l.accounts x.avsInputTokenVault = some av
  avsInput_thawed : av.frozen = false
  poolInput_key : x.poolInputTokenVault =
    getAssociatedTokenAddress x.pool x.tokenProgram x.inputTokenMint
  poolInput_some : l.accounts x.poolInputTokenVault = some pv
  poolInput_thawed : pv.frozen = false
  poolAvs_key : x.poolAvsTokenVault = getAssociatedTokenAddress x.pool x.tokenProgram x.avsTokenMint
  poolAvs_some : l.accounts x.poolAvsTokenVault = some pa
  poolAvs_thawed : pa.frozen = false

/-- The three token accounts are different. -/
theorem AvsAccounts.Ready.apart (h : x.Ready avsProgram l am im av pv pa) :
    x.avsInputTokenVault ≠ x.poolAvsTokenVault ∧ x.poolInputTokenVault ≠ x.poolAvsTokenVault ∧
      x.avsInputTokenVault ≠ x.poolInputTokenVault := by
  have havs : x.avs ≠ x.pool :=
    Pubkey.ne_of_not_isPool h.isPool (Pubkey.not_isPool_of_controls h.controls)
  have hmints := h.mints_ne
  refine ⟨?_, ?_, ?_⟩
  · exact associated_ne_of_wallet h.avsInput_key h.poolAvs_key havs
  · exact associated_ne_of_mint h.poolInput_key h.poolAvs_key hmints
  · exact associated_ne_of_wallet h.avsInput_key h.poolInput_key havs

/-- It does not matter how the funds have moved. -/
theorem AvsAccounts.Ready.of_fundsMoved {l' : Ledger Pubkey}
    (h : x.Ready avsProgram l am im av pv pa) (hm : FundsMoved l l') :
    ∃ am' im' av' pv' pa', x.Ready avsProgram l' am' im' av' pv' pa' := by
  obtain ⟨i, ham⟩ := hm.some_mint _ am h.avsMint_some
  obtain ⟨j, him⟩ := hm.some_mint _ im h.inputMint_some
  obtain ⟨av', hav, hav_terms⟩ := hm.some_account _ av h.avsInput_some
  obtain ⟨pv', hpv, hpv_terms⟩ := hm.some_account _ pv h.poolInput_some
  obtain ⟨pa', hpa, hpa_terms⟩ := hm.some_account _ pa h.poolAvs_some
  refine ⟨am.withSupply i, im.withSupply j, av', pv', pa', ?_⟩
  exact { h with
    avsMint_some := ham
    inputMint_some := him
    avsInput_some := hav
    avsInput_thawed := hav_terms.frozen.trans h.avsInput_thawed
    poolInput_some := hpv
    poolInput_thawed := hpv_terms.frozen.trans h.poolInput_thawed
    poolAvs_some := hpa
    poolAvs_thawed := hpa_terms.frozen.trans h.poolAvs_thawed }

/-- The token program carries an undelegation out when the pool has the AVS tokens and the AVS the
input tokens. -/
theorem AvsAccounts.Ready.exists_undelegate (h : x.Ready avsProgram l am im av pv pa)
    (hl : LedgerSound l) (hav_held : av.Held x.avs) (hburn : n ≤ pa.amount)
    (hpay : n ≤ av.amount) :
    ∃ l', execAll (x.privileges avsProgram) (x.exchange n .undelegate) l = .ok l' := by
  have hadmitted := exchange_admitted (x := x) h.controls n .undelegate
  obtain ⟨hav_ne, hpv_ne, hvaults⟩ := h.apart
  have hpa_some := h.poolAvs_key ▸ h.poolAvs_some
  have hav_some := h.avsInput_key ▸ h.avsInput_some
  have hpv_some := h.poolInput_key ▸ h.poolInput_some
  have hpa_held := hl.held _ _ _ pa h.isPool hpa_some
  have hburn_ok := exec_burn_of_mayMove (q := x.privileges avsProgram) hl.conserved h.poolAvs_some
    h.avsMint_some (hl.associated _ _ _ pa hpa_some)
    ((hl.program _ _ _ pa hpa_some).trans h.avsMint_program.symm) h.poolAvs_thawed
    ((hpa_held.usable h.poolAvs_thawed).mayMove n) hburn (hadmitted _ List.mem_cons_self)
  rw [h.avsMint_program] at hburn_ok
  have hconserved := process_conserved hl.conserved ((exec_eq_ok_iff ..).1 hburn_ok).2
  have hpay_ok := exec_transfer_of_usable (q := x.privileges avsProgram) hconserved (Or.inl rfl)
    hvaults ((if_neg hav_ne).trans h.avsInput_some) ((if_neg hpv_ne).trans h.poolInput_some)
    ((if_neg h.mints_ne).trans h.inputMint_some) (hl.associated _ _ _ av hav_some)
    (hl.associated _ _ _ pv hpv_some)
    ((hl.program _ _ _ av hav_some).trans h.inputMint_program.symm)
    ((hl.program _ _ _ pv hpv_some).trans h.inputMint_program.symm) h.inputMint_fee
    (hav_held.usable h.avsInput_thawed) h.poolInput_thawed hpay
    (hadmitted _ (List.mem_cons_of_mem _ List.mem_cons_self))
  rw [h.inputMint_program] at hpay_ok
  exact ⟨_, (execAll_cons_eq_ok_iff ..).2 ⟨_, hburn_ok,
    (execAll_cons_eq_ok_iff ..).2 ⟨_, hpay_ok, rfl⟩⟩⟩

/-- It carries a delegation out when the pool has the input tokens and the supply of AVS tokens does
not overflow. -/
theorem AvsAccounts.Ready.exists_delegate (h : x.Ready avsProgram l am im av pv pa)
    (hl : LedgerSound l) (hfunds : n ≤ pv.amount) (hfits : am.supply + n ≤ u64Max) :
    ∃ l', execAll (x.privileges avsProgram) (x.exchange n .delegate) l = .ok l' := by
  have hadmitted := exchange_admitted (x := x) h.controls n .delegate
  obtain ⟨hav_ne, hpv_ne, hvaults⟩ := h.apart
  have hpa_some := h.poolAvs_key ▸ h.poolAvs_some
  have hav_some := h.avsInput_key ▸ h.avsInput_some
  have hpv_some := h.poolInput_key ▸ h.poolInput_some
  have hpv_held := hl.held _ _ _ pv h.isPool hpv_some
  have hpay_ok := exec_transfer_of_usable (q := x.privileges avsProgram) hl.conserved (Or.inl rfl)
    hvaults.symm h.poolInput_some h.avsInput_some h.inputMint_some
    (hl.associated _ _ _ pv hpv_some) (hl.associated _ _ _ av hav_some)
    ((hl.program _ _ _ pv hpv_some).trans h.inputMint_program.symm)
    ((hl.program _ _ _ av hav_some).trans h.inputMint_program.symm) h.inputMint_fee
    (hpv_held.usable h.poolInput_thawed) h.avsInput_thawed hfunds (hadmitted _ List.mem_cons_self)
  rw [h.inputMint_program] at hpay_ok
  have hconserved := process_conserved hl.conserved ((exec_eq_ok_iff ..).1 hpay_ok).2
  have hmint_ok := exec_mintTo_of_authority (q := x.privileges avsProgram) hconserved
    ((if_neg hav_ne.symm).trans ((if_neg hpv_ne.symm).trans h.poolAvs_some)) h.avsMint_some
    (hl.associated _ _ _ pa hpa_some)
    ((hl.program _ _ _ pa hpa_some).trans h.avsMint_program.symm) h.poolAvs_thawed
    h.avsMint_authority hfits (hadmitted _ (List.mem_cons_of_mem _ List.mem_cons_self))
  rw [h.avsMint_program] at hmint_ok
  exact ⟨_, (execAll_cons_eq_ok_iff ..).2 ⟨_, hpay_ok,
    (execAll_cons_eq_ok_iff ..).2 ⟨_, hmint_ok, rfl⟩⟩⟩

end Exchange

section Deposit

variable {rt : Runtime} {p : Privileges Pubkey} {amount : UInt64} {s start : State}
  {im om : Mint Pubkey} {ui vault : TokenAccount Pubkey} {r : LRTPool}
  {created : Loaded (TokenAccount Pubkey)}

/-- A deposit succeeds when the signer's input tokens suffice and the limit is kept. -/
theorem exists_deposit {a : DepositAccounts} (hacc : Deposit.Accepted p a s im ui vault om r)
    (hinit : initIfNeeded p a.signer a.signerOutputTokenVault a.outputTokenMint a.signer
      a.tokenProgram s = .ok (created, start))
    (hl : LedgerSound s.ledger) (hp : ∀ m ∈ a.metas, p.available m.pubkey = true)
    (hw : p.writable a.signerInputTokenVault = true) (hne : a.signer ≠ a.pool)
    (htoken : a.tokenProgram = .program .token) (hui : ui.frozen = false)
    (hvault : vault.frozen = false) (huo : created.account.frozen = false)
    (hmay : ui.MayMove a.signer amount.toNat) (hfunds : amount.toNat ≤ ui.amount)
    (hlimit : om.supply + amount.toNat ≤ r.outputMintLimit.toNat) :
    ∃ s', rt.execute p (.deposit a amount) s = .ok s' := by
  have hpool : a.pool.isPool = true := isPool_of_eq hacc.pool_eq
  obtain ⟨huo_mut, huo_key, -⟩ := (initIfNeeded_eq_ok_iff ..).1 hinit
  have hsource : a.signerInputTokenVault ≠ a.poolInputTokenVault :=
    associated_ne_of_wallet hacc.signerInput_key hacc.poolInput_key hne
  -- the vault is checked under the legacy program, which is the one of the pool
  have hvault_key : a.poolInputTokenVault =
      getAssociatedTokenAddress a.pool a.tokenProgram a.inputTokenMint :=
    htoken.symm ▸ hacc.poolInput_key
  have hl₀ := initIfNeeded_ledgerSound hl hinit
  have hmints := initIfNeeded_mints hinit
  have him_some := (congrFun hmints _).trans hacc.inputMint_some
  have hom_some := (congrFun hmints _).trans hacc.outputMint_some
  have hui_some := initIfNeeded_account_of_some hinit hacc.signerInput_some
  have hvault_some := initIfNeeded_account_of_some hinit hacc.poolInput_some
  have huo_some := initIfNeeded_account hinit
  have hui_mint := hl₀.associated _ _ _ ui (hacc.signerInput_key ▸ hui_some)
  have hvault_mint := hl₀.associated _ _ _ vault (hvault_key ▸ hvault_some)
  have hvault_program := hl₀.program _ _ _ vault (hvault_key ▸ hvault_some)
  have huo_mint := hl₀.associated _ _ _ _ (huo_key ▸ huo_some)
  have hfee := hl₀.legacy _ im him_some (hacc.inputMint_program.trans htoken)
  simp only [DepositAccounts.metas, accountMeta, readonlyMeta, List.forall_mem_cons,
    List.not_mem_nil, false_imp_iff, implies_true, and_true] at hp
  have hstake := exec_transfer_of_mayMove (q := p) hl₀.conserved (Or.inr rfl) hsource hui_some
    hvault_some him_some hui_mint hvault_mint
    (hacc.signerInput_program.trans hacc.inputMint_program.symm)
    (hvault_program.trans hacc.inputMint_program.symm) hfee hui hmay hvault hfunds
    (by simp [TokenIx.metas, Privileges.admits, hp, hacc.signer, hw, hacc.poolInput_mut])
  rw [hacc.inputMint_program] at hstake
  obtain ⟨staked, hstake⟩ : ∃ l, exec p a.tokenProgram (.transfer a.signerInputTokenVault
      a.poolInputTokenVault a.signer amount.toNat (some (a.inputTokenMint, im.decimals)))
      start.ledger = .ok l := ⟨_, hstake⟩
  have hmoved := exec_fundsMoved rfl hstake
  have hconserved := process_conserved hl₀.conserved ((exec_eq_ok_iff ..).1 hstake).2
  have hom_staked : staked.mints a.outputTokenMint = some om := by
    rw [processTransfer_mints ((exec_eq_ok_iff ..).1 hstake).2]
    exact hom_some
  obtain ⟨uo', huo', huo_terms⟩ := hmoved.some_account _ _ huo_some
  have hbound : r.outputMintLimit.toNat ≤ u64Max := Nat.le_of_lt_succ (UInt64.toNat_lt _)
  have hfits : om.supply + amount.toNat ≤ u64Max := hlimit.trans hbound
  have hmint := exec_mintTo_of_authority (q := sign p a.pool) hconserved
    huo' hom_staked (huo_terms.mint.trans huo_mint)
    (huo_terms.program.trans ((initIfNeeded_program hinit).trans hacc.outputMint_program.symm))
    (huo_terms.frozen.trans huo) hacc.outputMint_authority hfits
    (by simp [TokenIx.metas, Privileges.admits, hp, hacc.outputMint_mut, huo_mut])
  rw [hacc.outputMint_program] at hmint
  refine ⟨_, (execute_deposit_iff ..).2 ⟨⟨im, ui, vault, om, r, created, start, staked, _,
    om.withSupply (om.supply + amount.toNat), hacc, hinit, hstake, hmint, if_pos rfl, ?_, ?_⟩, rfl⟩⟩
  · rw [Mint.withSupply_program, hacc.outputMint_program]
    exact hacc.tokenProgram
  · exact hlimit

end Deposit

section Withdraw

variable {rt : Runtime} {p : Privileges Pubkey} {amount : UInt64} {s : State}
  {im om : Mint Pubkey} {ui vault uo : TokenAccount Pubkey} {r : LRTPool}

/-- A withdrawal succeeds when the signer's output tokens and the vault suffice. -/
theorem exists_withdraw {a : WithdrawAccounts}
    (hacc : Withdraw.Accepted p a s im ui vault om uo r) (hl : LedgerSound s.ledger)
    (hp : ∀ m ∈ a.metas, p.available m.pubkey = true) (hne : a.signer ≠ a.pool)
    (hfee : im.transferFee = none) (hui : ui.frozen = false) (hvault : vault.frozen = false)
    (huo : uo.frozen = false) (hmay : uo.MayMove a.signer amount.toNat)
    (hburn : amount.toNat ≤ uo.amount)
    (hpay : amount.toNat ≤ vault.amount) :
    ∃ s', rt.execute p (.withdraw a amount) s = .ok s' := by
  have hpool : a.pool.isPool = true := isPool_of_eq hacc.pool_eq
  have hsource : a.poolInputTokenVault ≠ a.signerInputTokenVault :=
    associated_ne_of_wallet hacc.poolInput_key hacc.signerInput_key hne.symm
  have houtput : a.poolInputTokenVault ≠ a.signerOutputTokenVault :=
    associated_ne_of_wallet hacc.poolInput_key hacc.signerOutput_key hne.symm
  have hvault_some := hacc.poolInput_key ▸ hacc.poolInput_some
  have hheld := hl.held _ _ _ vault hpool hvault_some
  have huo_some := hacc.signerOutput_key ▸ hacc.signerOutput_some
  have hui_some := hacc.signerInput_key ▸ hacc.signerInput_some
  simp only [WithdrawAccounts.metas, accountMeta, readonlyMeta, List.forall_mem_cons,
    List.not_mem_nil, false_imp_iff, implies_true, and_true] at hp
  have hburn_ok := exec_burn_of_mayMove (q := p) hl.conserved hacc.signerOutput_some
    hacc.outputMint_some (hl.associated _ _ _ uo huo_some)
    (hacc.signerOutput_program.trans hacc.outputMint_program.symm) huo hmay hburn
    (by simp [TokenIx.metas, Privileges.admits, hp, hacc.signer, hacc.signerOutput_mut,
      hacc.outputMint_mut])
  rw [hacc.outputMint_program] at hburn_ok
  -- the burn leaves the vault as it was
  obtain ⟨burned, hvault_burned, hburn_ok⟩ : ∃ l, l.accounts a.poolInputTokenVault = some vault ∧
      exec p a.tokenProgram (.burn a.signerOutputTokenVault a.outputTokenMint a.signer
        amount.toNat) s.ledger = .ok l :=
    ⟨_, by simpa [houtput] using hacc.poolInput_some, hburn_ok⟩
  have hmoved := exec_fundsMoved rfl hburn_ok
  have hconserved := process_conserved hl.conserved ((exec_eq_ok_iff ..).1 hburn_ok).2
  obtain ⟨ui', hui', hterms⟩ := hmoved.some_account _ ui hacc.signerInput_some
  obtain ⟨n, him'⟩ := hmoved.some_mint _ im hacc.inputMint_some
  have hpay_ok := exec_transfer_of_usable (q := sign p a.pool) hconserved (Or.inr rfl) hsource
    hvault_burned hui' him' (hl.associated _ _ _ vault hvault_some)
    (hterms.mint.trans (hl.associated _ _ _ ui hui_some))
    (hacc.poolInput_program.trans hacc.inputMint_program.symm)
    (hterms.program.trans (hacc.signerInput_program.trans hacc.inputMint_program.symm)) hfee
    (hheld.usable hvault) (hterms.frozen.trans hui) hpay
    (by simp [TokenIx.metas, Privileges.admits, hp, hacc.poolInput_mut, hacc.signerInput_mut])
  rw [Mint.withSupply_program, hacc.inputMint_program, Mint.withSupply_decimals] at hpay_ok
  exact ⟨_, (execute_withdraw_iff ..).2 ⟨⟨im, ui, vault, om, uo, r, burned, vault, _, hacc,
    hburn_ok, hvault_burned, hacc.poolInput_program ▸ hacc.tokenProgram, hpay, hpay_ok⟩, rfl⟩⟩

end Withdraw

section WithdrawStake

variable {avss : Set Pubkey} {avsMints : Finset Pubkey} {rt : Runtime} {p : Privileges Pubkey}
  {amount : UInt64} {s start : State} {im om avsMint : Mint Pubkey}
  {vault uo avsInput poolAvs : TokenAccount Pubkey} {r : LRTPool}
  {created : Loaded (TokenAccount Pubkey)}

/-- An honest undelegation pays the amount into the vault of the pool. -/
theorem exchange_pays_vault {x : AvsAccounts} {q : Privileges Pubkey} {l l' : Ledger Pubkey}
    {amount : Nat} (h : execAll q (x.exchange amount .undelegate) l = .ok l')
    (hpa : x.poolInputTokenVault ≠ x.poolAvsTokenVault)
    (hav : x.poolInputTokenVault ≠ x.avsInputTokenVault) :
    l'.balance x.poolInputTokenVault = l.balance x.poolInputTokenVault + amount := by
  have hbal := execAll_balance_of_free (exchange_free _ _ _) h x.poolInputTokenVault
  simpa [AvsAccounts.exchange, TokenIx.debited, TokenIx.credited, hpa, hav] using hbal

/-- The user's account is none of those of the exchange, and its mint is not that of the AVS. -/
theorem WithdrawStake.Accepted.apart
    {a : WithdrawStakeAccounts}
    (h : WithdrawStake.Accepted p a s im vault om uo r avsMint avsInput poolAvs)
    (hne_pool : a.signer ≠ a.pool) (hne_avs : a.signer ≠ a.avs) (hpool : a.avs.isPool = false) :
    a.signerOutputTokenVault ≠ a.poolAvsTokenVault ∧
      a.signerOutputTokenVault ≠ a.avsInputTokenVault ∧
      a.signerOutputTokenVault ≠ a.poolInputTokenVault ∧
      a.outputTokenMint ≠ a.avsTokenMint := by
  have hisPool : a.pool.isPool = true := isPool_of_eq h.pool_eq
  refine ⟨?_, ?_, ?_, ?_⟩
  · exact associated_ne_of_wallet h.signerOutput_key h.poolAvs_key hne_pool
  · exact associated_ne_of_wallet h.signerOutput_key h.avsInput_key hne_avs
  · exact associated_ne_of_wallet h.signerOutput_key h.poolInput_key hne_pool
  · -- the pool is the authority of one mint and the AVS of the other
    intro heq
    have hmint := h.outputMint_some
    rw [heq] at hmint
    obtain rfl := Option.some.inj (hmint.symm.trans h.avsMint_some)
    have hauth := Option.some.inj (h.outputMint_authority.symm.trans h.avsMint_authority)
    rw [← hauth, hisPool] at hpool
    cases hpool

/-- A forced exit succeeds when the signer's output tokens and the pool's AVS tokens suffice and the
AVS honours the call. What the vault held before does not matter. -/
theorem exists_withdrawDelegatedStake {a : WithdrawStakeAccounts}
    (hacc : WithdrawStake.Accepted p a s im vault om uo r avsMint avsInput poolAvs)
    (hl : LedgerSound s.ledger) (hf : im.transferFee = none)
    (hh : HonestPrograms avss avsMints rt.programs) (hin : a.inputTokenMint ∉ avsMints)
    (hp : ∀ m ∈ a.metas, p.available m.pubkey = true) (hne : a.signer ≠ a.pool)
    (hinit : initIfNeeded p a.signer a.signerInputTokenVault a.inputTokenMint a.signer
      a.tokenProgram s = .ok (created, start))
    (hui : created.account.frozen = false) (hvault : vault.frozen = false)
    (huo : uo.frozen = false) (hmay : uo.MayMove a.signer amount.toNat)
    (hburn : amount.toNat ≤ uo.amount)
    (hredeem : amount.toNat ≤ poolAvs.amount)
    (havs : ∀ burned, exec p a.tokenProgram (.burn a.signerOutputTokenVault a.outputTokenMint
        a.signer amount.toNat) start.ledger = .ok burned →
      ∃ cs l, AvsRun rt.programs a.avsAccounts a.avsProgram .undelegate amount
        { s with ledger := burned } l cs) :
    ∃ s', rt.execute p (.withdrawDelegatedStake a amount) s = .ok s' := by
  have hpool : a.pool.isPool = true := isPool_of_eq hacc.pool_eq
  obtain ⟨hw, hui_key, -⟩ := (initIfNeeded_eq_ok_iff ..).1 hinit
  have hsource : a.poolInputTokenVault ≠ a.signerInputTokenVault :=
    associated_ne_of_wallet hacc.poolInput_key hui_key hne.symm
  have hvault_output : a.poolInputTokenVault ≠ a.signerOutputTokenVault :=
    associated_ne_of_wallet hacc.poolInput_key hacc.signerOutput_key hne.symm
  have havs_output : a.poolAvsTokenVault ≠ a.signerOutputTokenVault :=
    associated_ne_of_wallet hacc.poolAvs_key hacc.signerOutput_key hne.symm
  have hl₀ := initIfNeeded_ledgerSound hl hinit
  have hmints := initIfNeeded_mints hinit
  have him_some := (congrFun hmints _).trans hacc.inputMint_some
  have hom_some := (congrFun hmints _).trans hacc.outputMint_some
  have hvault_start := initIfNeeded_account_of_some hinit hacc.poolInput_some
  have huo_start := initIfNeeded_account_of_some hinit hacc.signerOutput_some
  have hpa_start := initIfNeeded_account_of_some hinit hacc.poolAvs_some
  have hui_some := initIfNeeded_account hinit
  have hvault_some := hacc.poolInput_key ▸ hvault_start
  have hheld := hl₀.held _ _ _ vault hpool hvault_some
  have huo_some := hacc.signerOutput_key ▸ huo_start
  have hui_mint := hl₀.associated _ _ _ _ (hui_key ▸ hui_some)
  have hui_program := hl₀.program _ _ _ _ (hui_key ▸ hui_some)
  simp only [WithdrawStakeAccounts.metas, accountMeta, readonlyMeta, List.forall_mem_cons,
    List.not_mem_nil, false_imp_iff, implies_true, and_true] at hp
  have hburn_ok := exec_burn_of_mayMove (q := p) hl₀.conserved huo_start hom_some
    (hl₀.associated _ _ _ uo huo_some)
    (hacc.signerOutput_program.trans hacc.outputMint_program.symm) huo hmay hburn
    (by simp [TokenIx.metas, Privileges.admits, hp, hacc.signer, hacc.signerOutput_mut,
      hacc.outputMint_mut])
  rw [hacc.outputMint_program] at hburn_ok
  obtain ⟨burned, hvault_burned, havs_burned, hburn_ok⟩ : ∃ l,
      l.accounts a.poolInputTokenVault = some vault ∧
      l.accounts a.poolAvsTokenVault = some poolAvs ∧
      exec p a.tokenProgram (.burn a.signerOutputTokenVault a.outputTokenMint a.signer
        amount.toNat) start.ledger = .ok l :=
    ⟨_, by simpa [hvault_output] using hvault_start,
      by simpa [havs_output] using hpa_start, hburn_ok⟩
  have hmoved := exec_fundsMoved rfl hburn_ok
  have hconserved := process_conserved hl₀.conserved ((exec_eq_ok_iff ..).1 hburn_ok).2
  obtain ⟨cs, l₂, hrun⟩ := havs burned hburn_ok
  obtain ⟨havs_pool, -, hmem, hex⟩ := hh _ _ _ _ _ _ _ hrun
  have havs_ne : a.avs ≠ a.pool := Pubkey.ne_of_not_isPool hpool havs_pool
  have hmint_ne : a.inputTokenMint ≠ a.avsTokenMint := (ne_of_mem_of_not_mem hmem hin).symm
  have hpaid := exchange_pays_vault hex
    (associated_ne_of_mint hacc.poolInput_key hacc.poolAvs_key hmint_ne)
    (associated_ne_of_wallet hacc.poolInput_key hacc.avsInput_key (Ne.symm havs_ne))
  have hmoved₂ := hmoved.trans (execAll_fundsMoved (exchange_movesFunds _ _ _) hex)
  have hconserved₂ := reach_conserved hconserved (reach_of_execAll hex)
  obtain ⟨vault', hvault', hvault_terms⟩ := hmoved₂.some_account _ vault hvault_start
  obtain ⟨ui', hui', hui_terms⟩ := hmoved₂.some_account _ _ hui_some
  obtain ⟨n, him'⟩ := hmoved₂.some_mint _ im him_some
  -- whatever the vault held before, the AVS has paid the amount into it
  have hguard : amount.toNat ≤ vault'.amount := by
    have hbal := Ledger.balance_of_some hvault'
    change l₂.balance a.poolInputTokenVault = burned.balance a.poolInputTokenVault +
      amount.toNat at hpaid
    omega
  have hfee : (im.withSupply n).transferFee = none := hf
  have hadmitted : ∀ m ∈ a.avsAccounts.metas, (sign p a.pool).admits m = true := by
    simp [AvsAccounts.metas, WithdrawStakeAccounts.avsAccounts, accountMeta, readonlyMeta,
      Privileges.admits, hp, hacc.pool_mut, hacc.avs_mut, hacc.avsMint_mut, hacc.avsInput_mut,
      hacc.inputMint_mut, hacc.poolInput_mut, hacc.poolAvs_mut]
  have hpay_ok := exec_transfer_of_usable (q := sign p a.pool) hconserved₂ (Or.inr rfl) hsource
    hvault' hui' him'
    (hvault_terms.mint.trans (hl₀.associated _ _ _ vault hvault_some))
    (hui_terms.mint.trans hui_mint)
    (hvault_terms.program.trans (hacc.poolInput_program.trans hacc.inputMint_program.symm))
    (hui_terms.program.trans (hui_program.trans hacc.inputMint_program.symm))
    hfee (hvault_terms.usable (hheld.usable hvault))
    (hui_terms.frozen.trans hui) hguard
    (by simp [TokenIx.metas, Privileges.admits, hp, hacc.poolInput_mut, hw])
  rw [Mint.withSupply_program, hacc.inputMint_program, Mint.withSupply_decimals] at hpay_ok
  refine ⟨_, (execute_withdrawDelegatedStake_iff ..).2 ⟨⟨im, vault, om, uo, r, avsMint, avsInput,
    poolAvs, created, start, burned, poolAvs, cs, l₂, vault', _, hacc, hinit, hburn_ok, havs_burned,
    hacc.poolAvs_program ▸ hacc.tokenProgram, hredeem, hadmitted, hrun, hvault',
    ?_, hguard, hpay_ok⟩, rfl⟩⟩
  rw [hvault_terms.program, hacc.poolInput_program]
  exact hacc.tokenProgram

end WithdrawStake

end AdraLrt
