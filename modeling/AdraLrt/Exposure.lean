import AdraLrt.HostileAvs
import AdraLrt.TokenLedger.Drain

/-!
# The funds of a pool in a forced exit

Any holder of output tokens can make a forced exit, and the program that it names as the AVS gets
the signature of the pool. The program can take what is in an account of the pool that is handed to
it together with its mint, unless the account is frozen out of its reach (`Exposed`). No account of
the pool falls under any behaviour of the program, but for the amount of AVS tokens, exactly when
nothing is exposed but an AVS token vault that holds no more than the amount
(`withdrawDelegatedStake_funds`).

That an exposed account can be emptied is shown from a run that succeeds: the vault is emptied at
the end of the call, up to the payment (`exists_vault_emptied`); another account in a run beside the
first (`exists_account_emptied`), as the first may have given it away.
-/

set_option autoImplicit false

namespace AdraLrt

open TokenLedger Checked

/-- What the forced exit should guarantee: the vault does not fall, and no token account of the pool
does but the AVS token vault, by at most the amount. -/
def PoolFundsKept (a : WithdrawStakeAccounts) (amount : UInt64) (s s' : State) : Prop :=
  s.ledger.balance a.poolInputTokenVault ≤ s'.ledger.balance a.poolInputTokenVault ∧
    (∀ k acct, s.ledger.accounts k = some acct → acct.owner = a.pool → k ≠ a.poolAvsTokenVault →
      s.ledger.balance k ≤ s'.ledger.balance k) ∧
    s.ledger.balance a.poolAvsTokenVault ≤
      s'.ledger.balance a.poolAvsTokenVault + amount.toNat

/-- The called program can take what is in the account at `k`: the pool owns it, the account and its
mint are handed over writable, and it is neither empty nor frozen out of reach. -/
structure Exposed (a : WithdrawStakeAccounts) (s : State) (k : Pubkey) : Prop where
  handed : k ∈ a.avsAccounts.writable
  account : ∃ v, s.ledger.accounts k = some v ∧ v.owner = a.pool ∧ v.mint ∈ a.avsAccounts.writable
  unlocked : ¬ Locked (a.avsAccounts.privileges a.avsProgram) s.ledger k

/-- An address holds one thing: where a mint or a pool record is, there is no token account, and
neither where a program is. -/
structure OneEach (s : State) : Prop where
  mints : s.ledger.Apart
  pools : ∀ k r, s.pools k = some r → s.ledger.accounts k = none ∧ s.ledger.mints k = none
  programs : ∀ q, s.ledger.mints (.program q) = none

section Funds

variable {rt : Runtime} {p : Privileges Pubkey} {s : State} {a : WithdrawStakeAccounts}
  {amount : UInt64}

theorem WithdrawStakeRun.signer_ne_pool (d : WithdrawStakeRun id rt p a amount s)
    (hp : p.signer a.pool = false) : a.signer ≠ a.pool := by
  intro heq
  rw [← heq, d.accepted.signer] at hp
  cases hp

/-- An account of the pool is not the account that the signer is paid into. -/
theorem WithdrawStakeRun.ne_signerInput (d : WithdrawStakeRun id rt p a amount s)
    (hp : p.signer a.pool = false) {k : Pubkey} {acct : TokenAccount Pubkey}
    (hk : s.ledger.accounts k = some acct) (howner : acct.owner = a.pool) :
    k ≠ a.signerInputTokenVault := by
  rintro rfl
  rcases ((initIfNeeded_eq_ok_iff ..).1 d.init_eq).2.2.2 with ⟨-, hv, -, ho, -⟩ | ⟨hnone, -⟩
  · obtain rfl := Option.some.inj (hk.symm.trans hv)
    exact d.signer_ne_pool hp (ho.symm.trans howner)
  · rw [hk] at hnone
    cases hnone

/-- The burn does not touch the accounts of the pool. -/
theorem WithdrawStakeRun.burned_account (d : WithdrawStakeRun id rt p a amount s)
    (hp : p.signer a.pool = false) {k : Pubkey} {acct : TokenAccount Pubkey}
    (hk : s.ledger.accounts k = some acct) (howner : acct.owner = a.pool) :
    d.burned.accounts k = some acct := by
  have hne : k ≠ a.signerOutputTokenVault := by
    rintro rfl
    obtain rfl := Option.some.inj (hk.symm.trans d.accepted.signerOutput_some)
    exact d.signer_ne_pool hp (d.accepted.signerOutput_owner.symm.trans howner)
  obtain ⟨-, hburn⟩ := (exec_eq_ok_iff ..).1 d.burn_eq
  obtain ⟨src, m, -, -, -, -, -, -, -, -, -, hl⟩ := (processBurn_eq_ok_iff ..).1 hburn
  rw [hl]
  simpa [hne] using initIfNeeded_account_of_some d.init_eq hk

/-- The burn lowers a supply at most. -/
theorem WithdrawStakeRun.burned_mint (d : WithdrawStakeRun id rt p a amount s) {k : Pubkey}
    {m : Mint Pubkey} (hm : s.ledger.mints k = some m) :
    ∃ n, d.burned.mints k = some (m.withSupply n) := by
  obtain ⟨-, hburned⟩ := d.burned_outputMint
  by_cases hk : k = a.outputTokenMint
  · subst hk
    obtain rfl := Option.some.inj (hm.symm.trans d.accepted.outputMint_some)
    exact ⟨_, hburned⟩
  · obtain ⟨src, x, -, -, -, -, -, -, -, -, -, hl⟩ :=
      (processBurn_eq_ok_iff ..).1 ((exec_eq_ok_iff ..).1 d.burn_eq).2
    refine ⟨m.supply, ?_⟩
    rw [hl, Ledger.setMint_mints, if_neg hk, Ledger.setAccount_mints, initIfNeeded_mints d.init_eq]
    exact hm

theorem WithdrawStakeRun.burned_mint_origin (d : WithdrawStakeRun id rt p a amount s) {k : Pubkey}
    {y : Mint Pubkey} (hy : d.burned.mints k = some y) : ∃ m, s.ledger.mints k = some m := by
  rcases exec_mint_origin d.burn_eq hy with ⟨x, hx, -⟩ | ⟨-, ⟨_, _, _, hix⟩, -⟩
  · exact ⟨x, initIfNeeded_mints d.init_eq ▸ hx⟩
  · cases hix

/-- An account after the burn was there before, or it was created for the signer to be paid into. -/
theorem WithdrawStakeRun.burned_account_origin (d : WithdrawStakeRun id rt p a amount s)
    {k : Pubkey} {b : TokenAccount Pubkey} (hb : d.burned.accounts k = some b) :
    (∃ c, s.ledger.accounts k = some c ∧ b.mint = c.mint) ∨ b.mint = a.inputTokenMint := by
  rcases exec_account_origin d.burn_eq hb with ⟨c, hc, hm, -⟩ | ⟨-, hix, -⟩
  · rcases initIfNeeded_account_origin d.init_eq hc with hold | hnew
    · exact Or.inl ⟨c, hold, hm⟩
    · exact Or.inr (hm.trans hnew)
  · cases hix

/-- What is locked stays so up to the call. -/
theorem WithdrawStakeRun.burned_locked (d : WithdrawStakeRun id rt p a amount s)
    (hp : p.signer a.pool = false) {q : Privileges Pubkey} {k : Pubkey} {v : TokenAccount Pubkey}
    (hv : s.ledger.accounts k = some v) (howner : v.owner = a.pool) (hk : Locked q s.ledger k) :
    Locked q d.burned k := by
  have hv' := d.burned_account hp hv howner
  have hbalance : d.burned.balance k = s.ledger.balance k :=
    Ledger.balance_congr (hv'.trans hv.symm)
  rw [Locked, hbalance]
  refine hk.imp_right ?_
  rintro ⟨w, m, hw, hf, hn, hpos, hm, hh⟩
  obtain rfl := Option.some.inj (hv.symm.trans hw)
  obtain ⟨n, hm'⟩ := d.burned_mint hm
  exact ⟨v, _, hv', hf, hn, hpos, hm', hh⟩

/-! ### What is handed over -/

/-- A token account that is handed over is the account of the AVS address itself, or it holds input
tokens or AVS tokens under the token program of the instruction. -/
theorem WithdrawStakeRun.handed_account (d : WithdrawStakeRun id rt p a amount s)
    (hw : WellFormed s.ledger) (hone : OneEach s) {k : Pubkey} {v : TokenAccount Pubkey}
    (hk : k ∈ a.avsAccounts.writable) (hv : s.ledger.accounts k = some v) :
    k = a.avs ∨ v.mint ∈ a.avsAccounts.writable ∧ v.program = a.tokenProgram := by
  have hacc := d.accepted
  have hmints : a.inputTokenMint ∈ a.avsAccounts.writable ∧
      a.avsTokenMint ∈ a.avsAccounts.writable := by
    simp [AvsAccounts.writable, WithdrawStakeAccounts.avsAccounts]
  have hfree : k ≠ a.pool ∧ k ≠ a.avsTokenMint ∧ k ≠ a.inputTokenMint := by
    refine ⟨?_, ?_, ?_⟩
    · rintro rfl
      rw [(hone.pools _ _ hacc.pool_some).1] at hv
      cases hv
    · rintro rfl
      rw [hone.mints _ _ hacc.avsMint_some] at hv
      cases hv
    · rintro rfl
      rw [hone.mints _ _ hacc.inputMint_some] at hv
      cases hv
  have hassociated : ∀ {j w m : Pubkey} {b : TokenAccount Pubkey},
      j = getAssociatedTokenAddress w a.tokenProgram m → s.ledger.accounts j = some b →
      b.mint = m := by
    rintro j w m b rfl hb
    exact hw.associated _ _ _ b hb
  simp only [AvsAccounts.writable, WithdrawStakeAccounts.avsAccounts, List.mem_cons,
    List.not_mem_nil, or_false] at hk
  rcases hk with rfl | rfl | rfl | rfl | rfl | rfl | rfl
  · exact (hfree.1 rfl).elim
  · exact Or.inl rfl
  · exact (hfree.2.1 rfl).elim
  · obtain rfl := Option.some.inj (hv.symm.trans hacc.avsInput_some)
    rw [hassociated hacc.avsInput_key hv]
    exact Or.inr ⟨hmints.1, hacc.avsInput_program⟩
  · exact (hfree.2.2 rfl).elim
  · obtain rfl := Option.some.inj (hv.symm.trans hacc.poolInput_some)
    rw [hassociated hacc.poolInput_key hv]
    exact Or.inr ⟨hmints.1, hacc.poolInput_program⟩
  · obtain rfl := Option.some.inj (hv.symm.trans hacc.poolAvs_some)
    rw [hassociated hacc.poolAvs_key hv]
    exact Or.inr ⟨hmints.2, hacc.poolAvs_program⟩

/-- So an account whose mint is handed over with it is under that token program. -/
theorem WithdrawStakeRun.handed_program (d : WithdrawStakeRun id rt p a amount s)
    (hw : WellFormed s.ledger) (hone : OneEach s) {k : Pubkey} {v : TokenAccount Pubkey}
    (hk : k ∈ a.avsAccounts.writable) (hv : s.ledger.accounts k = some v)
    (hm : v.mint ∈ a.avsAccounts.writable) : v.program = a.tokenProgram := by
  rcases d.handed_account hw hone hk hv with rfl | ⟨-, hp⟩
  · have hacc := d.accepted
    obtain ⟨x, hx, hxp⟩ := hw.mint_some _ v hv
    -- the mint is one of the two, as a token account or a pool record is none
    have hno : ∀ {j : Pubkey} {b : TokenAccount Pubkey}, s.ledger.accounts j = some b →
        v.mint ≠ j := by
      rintro j b hb rfl
      rw [hone.mints _ _ hx] at hb
      cases hb
    have hpool : v.mint ≠ a.pool := by
      intro heq
      rw [heq, (hone.pools _ _ hacc.pool_some).2] at hx
      cases hx
    simp only [AvsAccounts.writable, WithdrawStakeAccounts.avsAccounts, List.mem_cons,
      List.not_mem_nil, or_false, hpool, hno hv, hno hacc.avsInput_some, hno hacc.poolInput_some,
      hno hacc.poolAvs_some, false_or] at hm
    rcases hm with hm | hm
    · rw [hm, hacc.avsMint_some] at hx
      obtain rfl := Option.some.inj hx
      exact hxp.symm.trans hacc.avsMint_program
    · rw [hm, hacc.inputMint_some] at hx
      obtain rfl := Option.some.inj hx
      exact hxp.symm.trans hacc.inputMint_program
  · exact hp

/-- A mint that the called program can name can be written by it. -/
theorem WithdrawStakeRun.mint_handed (d : WithdrawStakeRun id rt p a amount s) (hone : OneEach s)
    {k : Pubkey} {m : Mint Pubkey} (hm : s.ledger.mints k = some m) (hk : k ∈ a.avsAccounts.keys) :
    k ∈ a.avsAccounts.writable := by
  have hacc := d.accepted
  have hno : ∀ q, k ≠ .program q := by
    rintro q rfl
    rw [hone.programs] at hm
    cases hm
  have htoken : k ≠ a.tokenProgram := by
    rcases Bool.or_eq_true_iff.1 hacc.tokenProgram with hq | hq
    · rw [of_decide_eq_true hq]
      exact hno _
    · rw [of_decide_eq_true hq]
      exact hno _
  rcases List.mem_append.1 hk with hk | hk
  · exact hk
  · simp only [WithdrawStakeAccounts.avsAccounts, List.mem_cons, List.not_mem_nil, or_false,
      hacc.associatedTokenProgram, hacc.systemProgram] at hk
    rcases hk with hk | hk | hk
    · exact (htoken hk).elim
    · exact (hno _ hk).elim
    · exact (hno _ hk).elim

/-! ### Safe accounts -/

/-- The called program takes nothing from an account of the pool that is not exposed. -/
theorem WithdrawStakeRun.undelegated_le (d : WithdrawStakeRun id rt p a amount s)
    (hw : WellFormed s.ledger) (hone : OneEach s) (hp : p.signer a.pool = false) {k : Pubkey}
    {v : TokenAccount Pubkey} (hv : s.ledger.accounts k = some v) (howner : v.owner = a.pool)
    (hsafe : ¬ Exposed a s k) : d.burned.balance k ≤ d.undelegated.balance k := by
  have hreach := reach_of_execAll d.avs.execAll_eq
  by_cases hk : k ∈ a.avsAccounts.writable
  · by_cases hm : v.mint ∈ a.avsAccounts.writable
    · have hlocked : Locked (a.avsAccounts.privileges a.avsProgram) s.ledger k :=
        by_contra fun hopen => hsafe ⟨hk, ⟨v, hv, howner, hm⟩, hopen⟩
      exact reach_locked hreach (d.burned_locked hp hv howner hlocked)
    · -- then it is the account of the AVS address, and no other one has its mint
      rcases Nat.eq_zero_or_pos (d.burned.balance k) with hzero | hpos
      · omega
      have hlone : Lone (a.avsAccounts.privileges a.avsProgram) k v.mint (d.burned.balance k)
          d.burned := by
        refine ⟨Nat.le_refl _, fun b hb => ?_, fun i hi hwi b hb hbm => hm ?_⟩
        · rw [d.burned_account hp hv howner] at hb
          rw [← Option.some.inj hb]
        · rw [← hbm]
          rw [AvsAccounts.privileges_writable] at hwi
          rcases d.burned_account_origin hb with ⟨c, hc, hcm⟩ | hnew
          · rcases d.handed_account hw hone hwi hc with rfl | ⟨hcw, -⟩
            · rcases d.handed_account hw hone hk hv with rfl | ⟨hvw, -⟩
              · exact (hi rfl).elim
              · exact (hm hvw).elim
            · exact hcm ▸ hcw
          · rw [hnew]
            simp [AvsAccounts.writable, WithdrawStakeAccounts.avsAccounts]
      have hz : (a.avsAccounts.privileges a.avsProgram).available v.mint = false := by
        rw [Bool.eq_false_iff, ne_eq, AvsAccounts.privileges_available]
        obtain ⟨x, hx, -⟩ := hw.mint_some k v hv
        exact fun hkeys => hm (d.mint_handed hone hx hkeys)
      exact (reach_lone hz hpos hreach hlone).funds
  · have hunwritable : (a.avsAccounts.privileges a.avsProgram).writable k = false := by
      rw [Bool.eq_false_iff, ne_eq, AvsAccounts.privileges_writable]
      exact hk
    exact Nat.le_of_eq (Ledger.balance_congr (reach_frame hreach hunwritable).1).symm

/-- A vault that is not exposed is empty, since the signer could be paid out of it. -/
theorem WithdrawStakeRun.vault_empty (d : WithdrawStakeRun id rt p a amount s)
    (hw : WellFormed s.ledger) (hp : p.signer a.pool = false)
    (hsafe : ¬ Exposed a s a.poolInputTokenVault) : s.ledger.balance a.poolInputTokenVault = 0 := by
  have hacc := d.accepted
  have hmint : d.poolInput.mint = a.inputTokenMint :=
    hw.associated a.pool a.tokenProgram _ _ (hacc.poolInput_key ▸ hacc.poolInput_some)
  have hlocked : Locked (a.avsAccounts.privileges a.avsProgram) s.ledger a.poolInputTokenVault := by
    by_contra hopen
    refine hsafe ⟨?_, ⟨_, hacc.poolInput_some, hacc.poolInput_owner, ?_⟩, hopen⟩
    · simp [AvsAccounts.writable, WithdrawStakeAccounts.avsAccounts]
    · simp [hmint, AvsAccounts.writable, WithdrawStakeAccounts.avsAccounts]
  have hburned := d.burned_locked hp hacc.poolInput_some hacc.poolInput_owner hlocked
  have hbalance : d.burned.balance a.poolInputTokenVault =
      s.ledger.balance a.poolInputTokenVault :=
    Ledger.balance_congr
      ((d.burned_account hp hacc.poolInput_some hacc.poolInput_owner).trans
        hacc.poolInput_some.symm)
  rcases hburned with hzero | hfrozen
  · omega
  · obtain ⟨v, m, hv, hf, -⟩ := reach_frozenBeyond (reach_of_execAll d.avs.execAll_eq) hfrozen
    obtain ⟨src, dst, fee, hpay⟩ :=
      (processTransfer_eq_ok_iff ..).1 ((exec_eq_ok_iff ..).1 d.pay_eq).2
    obtain rfl := Option.some.inj (hv.symm.trans hpay.source_some)
    rw [hpay.source_thawed] at hf
    cases hf

theorem poolFundsKept_of_safe (d : WithdrawStakeRun id rt p a amount s) (hw : WellFormed s.ledger)
    (hone : OneEach s) (hp : p.signer a.pool = false)
    (hsafe : ∀ k, Exposed a s k → k = a.poolAvsTokenVault ∧ k ≠ a.poolInputTokenVault ∧
      s.ledger.balance k ≤ amount.toNat) :
    PoolFundsKept a amount s { s with ledger := d.paid } := by
  have hzero := d.vault_empty hw hp fun h => (hsafe _ h).2.1 rfl
  have hne := d.ne_signerInput hp d.accepted.poolInput_some d.accepted.poolInput_owner
  obtain ⟨-, hother⟩ := processTransfer_balances hne ((exec_eq_ok_iff ..).1 d.pay_eq).2
  -- the payment takes from the vault only, which has nothing of before
  have hkept : ∀ k v, s.ledger.accounts k = some v → v.owner = a.pool → ¬ Exposed a s k →
      s.ledger.balance k ≤ d.paid.balance k := by
    intro k v hv howner hk
    by_cases hkV : k = a.poolInputTokenVault
    · rw [hkV, hzero]
      exact Nat.zero_le _
    · have hburned : d.burned.balance k = s.ledger.balance k :=
        Ledger.balance_congr ((d.burned_account hp hv howner).trans hv.symm)
      rw [hother k hkV (d.ne_signerInput hp hv howner), ← hburned]
      exact d.undelegated_le hw hone hp hv howner hk
  refine ⟨?_, fun k v hv howner hkP => ?_, ?_⟩
  · rw [hzero]
    exact Nat.zero_le _
  · exact hkept k v hv howner fun h => hkP (hsafe k h).1
  · show _ ≤ d.paid.balance _ + _
    by_cases hP : Exposed a s a.poolAvsTokenVault
    · have hle := (hsafe _ hP).2.2
      omega
    · have hle := hkept _ _ d.accepted.poolAvs_some d.accepted.poolAvs_owner hP
      omega

/-! ### Exposed accounts -/

/-- A program that is handed a vault with anything in it can empty it. -/
theorem exists_vault_emptied (d : WithdrawStakeRun id rt p a amount s)
    (hp : p.signer a.pool = false) (hc : s.ledger.Conserved) :
    ∃ (programs : Programs) (s' : State),
      Runtime.execute ⟨rt.findBump, programs⟩ p (.withdrawDelegatedStake a amount) s = .ok s' ∧
        s'.ledger.balance a.poolInputTokenVault = 0 := by
  obtain ⟨hadm, hpay⟩ := (exec_eq_ok_iff ..).1 d.pay_eq
  obtain ⟨src, dst, fee, h⟩ := (processTransfer_eq_ok_iff ..).1 hpay
  obtain rfl := Option.some.inj (d.vault_some.symm.trans h.source_some)
  have hreach := reach_of_execAll d.avs.execAll_eq
  have hpool := a.avsAccounts.signer_pool a.avsProgram
  -- the owner of the vault can sign: a delegate that is the pool was approved by such an owner
  have howner : (a.avsAccounts.privileges a.avsProgram).signer d.vault.owner = true := by
    have hstart : OwnerSigns (a.avsAccounts.privileges a.avsProgram) a.pool a.poolInputTokenVault
        d.burned := by
      intro v hv _
      have hv' := d.burned_account hp d.accepted.poolInput_some d.accepted.poolInput_owner
      obtain rfl := Option.some.inj (hv'.symm.trans hv)
      rw [d.accepted.poolInput_owner]
      exact hpool
    rcases h.mayMove with ⟨hdel, -⟩ | ⟨-, ho⟩
    · exact reach_ownerSigns hreach hstart _ d.vault_some hdel
    · rw [ho]
      exact hpool
  obtain ⟨m, hm, hmp, hmint⟩ : ∃ m, d.undelegated.mints d.vault.mint = some m ∧
      m.program = d.vault.program ∧ d.vault.mint = a.inputTokenMint := by
    have hfee := h.fee_ok
    simp only [Ledger.transferFee, bind_eq_ok_iff, require_eq_ok_iff, getMint_eq_ok_iff] at hfee
    obtain ⟨-, hmint, m, ⟨hm, hmp⟩, -⟩ := hfee
    exact ⟨m, hmint ▸ hm, hmp.trans h.source_program.symm, hmint.symm⟩
  have hsupply : d.vault.amount ≤ m.supply := by
    have hburn := (exec_eq_ok_iff ..).1 d.burn_eq
    have hstart : Reach (ceiling p a.pool) s.ledger d.start.ledger :=
      reach_of_initIfNeeded d.init_eq
    have hcons := reach_conserved (process_conserved (reach_conserved hc hstart) hburn.2) hreach
    exact Ledger.supply_of_some hm ▸ hcons.balance_le d.vault_some
  have hwV : a.poolInputTokenVault ∈ a.avsAccounts.writable := by
    simp [AvsAccounts.writable, WithdrawStakeAccounts.avsAccounts]
  have hwM : d.vault.mint ∈ a.avsAccounts.writable := by
    rw [hmint]
    simp [AvsAccounts.writable, WithdrawStakeAccounts.avsAccounts]
  -- it burns all but the amount, which the guard then finds and the payment takes out
  obtain ⟨cs, l₂, b, hcs, hl₂, hb, hbeq, hmove, hframe, hmint₂, hmints₂⟩ :=
    exists_burn_thawed (fun _ => AvsAccounts.available_of_signer) d.vault_some hm hmp
      (AvsAccounts.available_of_mem_writable hwV) (AvsAccounts.available_of_mem_writable hwM) howner
      h.source_thawed (Nat.sub_le d.vault.amount amount.toNat)
      ((Nat.sub_le _ _).trans hsupply)
  have hamount : b.amount = amount.toNat := by
    have hguard := d.guard
    simp only [id_eq] at hguard
    rw [hbeq]
    show d.vault.amount - (d.vault.amount - amount.toNat) = amount.toNat
    omega
  have halike : MintsAlike d.undelegated l₂ := by
    intro j
    by_cases hj : j = d.vault.mint
    · rw [hj, hmint₂, hm]
      rfl
    · rw [hmints₂ j hj]
  have hne := d.ne_signerInput hp d.accepted.poolInput_some d.accepted.poolInput_owner
  obtain ⟨l₃, hl₃⟩ := exists_processTransfer hpay hne d.vault_some hb (by rw [hbeq]) (by rw [hbeq])
    (by rw [hbeq]) (Nat.le_of_eq hamount.symm) hmove (hframe _ hne.symm) halike
  refine ⟨fun _ _ _ => some (d.calls ++ cs), { s with ledger := l₃ }, ?_, ?_⟩
  · refine d.replay ?_ ((execAll_append_eq_ok_iff ..).2 ⟨_, d.avs.execAll_eq, hl₂⟩) hb ?_
      (Nat.le_of_eq hamount.symm) ((exec_eq_ok_iff ..).2 ⟨hadm, hl₃⟩)
    · intro c hc
      rcases List.mem_append.1 hc with hc | hc
      · exact d.avs.tokenPrograms c hc
      · rw [hcs c hc, h.source_program]
        exact ⟨d.accepted.tokenProgram, a.avsAccounts.tokenProgram_mem_keys⟩
    · rw [hbeq]
      exact d.vault_program
  · have hpaid := (processTransfer_balances hne hl₃).1
    rw [Ledger.balance_of_some hb, hamount] at hpaid
    show l₃.balance _ = 0
    simp only [id_eq] at hpaid
    omega

theorem WithdrawStakeRun.burned_apart (d : WithdrawStakeRun id rt p a amount s) (hone : OneEach s) :
    d.burned.Apart := by
  have hstart : Reach (ceiling p a.pool) s.ledger d.start.ledger := reach_of_initIfNeeded d.init_eq
  exact exec_apart d.burn_eq (reach_apart hstart hone.mints)

/-- What the called program needs to empty an exposed account. -/
theorem WithdrawStakeRun.burned_accessible (d : WithdrawStakeRun id rt p a amount s)
    (hw : WellFormed s.ledger) (hone : OneEach s) (hp : p.signer a.pool = false) {k : Pubkey}
    {v : TokenAccount Pubkey} (hv : s.ledger.accounts k = some v) (howner : v.owner = a.pool)
    (hm : v.mint ∈ a.avsAccounts.writable) :
    Accessible (a.avsAccounts.privileges a.avsProgram) k d.burned := by
  have hstart : Reach (ceiling p a.pool) s.ledger d.start.ledger := reach_of_initIfNeeded d.init_eq
  have hv' := d.burned_account hp hv howner
  constructor
  · exact process_conserved (reach_conserved hw.conserved hstart)
      ((exec_eq_ok_iff ..).1 d.burn_eq).2
  · exact exec_minted d.burn_eq (reach_minted hstart hw.mint_some)
  · intro i y hy hav
    obtain ⟨x, hx⟩ := d.burned_mint_origin hy
    rw [AvsAccounts.privileges_writable]
    exact d.mint_handed hone hx ((AvsAccounts.privileges_available ..).1 hav)
  · intro w hw'
    obtain rfl := Option.some.inj (hv'.symm.trans hw')
    exact (AvsAccounts.available_of_mem_writable hm).1
  · intro i w hw' _
    obtain rfl := Option.some.inj (hv'.symm.trans hw')
    rw [howner]
    exact a.avsAccounts.signer_pool a.avsProgram

/-- An exposed account other than the vault can be emptied as well. -/
theorem exists_account_emptied (d : WithdrawStakeRun id rt p a amount s) (hw : WellFormed s.ledger)
    (hone : OneEach s) (hp : p.signer a.pool = false) {k : Pubkey} (hk : Exposed a s k)
    (hkV : k ≠ a.poolInputTokenVault) :
    ∃ (programs : Programs) (s' : State),
      Runtime.execute ⟨rt.findBump, programs⟩ p (.withdrawDelegatedStake a amount) s = .ok s' ∧
        s'.ledger.balance k = 0 := by
  obtain ⟨v, hv, howner, hm⟩ := hk.account
  have hne := d.ne_signerInput hp d.accepted.poolInput_some d.accepted.poolInput_owner
  have hkS := d.ne_signerInput hp hv howner
  obtain ⟨hadm, hpay⟩ := (exec_eq_ok_iff ..).1 d.pay_eq
  -- where the run ends with a mint at this address, it closed the account itself
  by_cases hno : d.undelegated.mints k = none
  · have hv' := d.burned_account hp hv howner
    obtain ⟨x, hx, -⟩ := hw.mint_some k v hv
    obtain ⟨n, hx'⟩ := d.burned_mint hx
    have hthaw := thawable_of_not_locked hk.unlocked hv hx
    obtain ⟨cs, l₂, htp, hl₂, hs⟩ := exists_drained
      (P := fun program => isTokenInterface program = true ∧ program ∈ a.avsAccounts.keys)
      (fun _ => AvsAccounts.available_of_signer) (AvsAccounts.available_of_mem_writable hk.handed)
      d.avs.execAll_eq d.avs.tokenPrograms (d.burned_accessible hw hone hp hv howner hm) hno hv' hx'
      (by
        rw [d.handed_program hw hone hk.handed hv hm]
        exact ⟨d.accepted.tokenProgram, a.avsAccounts.tokenProgram_mem_keys⟩)
      (by rw [howner]; exact a.avsAccounts.signer_pool a.avsProgram) (by exact hthaw)
    have hvault := (hs.account _ hkV.symm).trans d.vault_some
    obtain ⟨l₃, hl₃⟩ := exists_processTransfer hpay hne d.vault_some hvault rfl rfl rfl
      d.guard (fun _ _ h => h) (hs.account _ hkS.symm) hs.alike
    refine ⟨_, _, d.replay htp hl₂ hvault d.vault_program d.guard
      ((exec_eq_ok_iff ..).2 ⟨hadm, hl₃⟩), ?_⟩
    exact ((processTransfer_balances hne hl₃).2 k hkV hkS).trans hs.empty
  · obtain ⟨y, hy⟩ := Option.ne_none_iff_exists'.1 hno
    have hnone := reach_apart (reach_of_execAll d.avs.execAll_eq) (d.burned_apart hone) k y hy
    refine ⟨rt.programs, _, (execute_withdrawDelegatedStake_iff ..).2 ⟨d, rfl⟩, ?_⟩
    show d.paid.balance k = 0
    rw [(processTransfer_balances hne hpay).2 k hkV hkS, Ledger.balance, hnone]

/-- For a forced exit that can succeed: the pool keeps its funds under every behaviour of the AVS
program exactly when none of its accounts is exposed to it, apart from an AVS token vault with no
more than the amount. -/
theorem withdrawDelegatedStake_funds {findBump : Pubkey → UInt8} (hw : WellFormed s.ledger)
    (hone : OneEach s) (hp : p.signer a.pool = false)
    (hcan : CanSucceed findBump p (.withdrawDelegatedStake a amount) s) :
    (∀ (programs : Programs) (s' : State),
      Runtime.execute ⟨findBump, programs⟩ p (.withdrawDelegatedStake a amount) s = .ok s' →
        PoolFundsKept a amount s s') ↔
      ∀ k, Exposed a s k → k = a.poolAvsTokenVault ∧ k ≠ a.poolInputTokenVault ∧
        s.ledger.balance k ≤ amount.toNat := by
  constructor
  · intro hall k hk
    obtain ⟨programs, s', h⟩ := hcan
    obtain ⟨d, rfl⟩ := (execute_withdrawDelegatedStake_iff ..).1 h
    obtain ⟨v, hv, howner, -⟩ := hk.account
    have hpos : s.ledger.balance k ≠ 0 := fun hzero => hk.unlocked (Or.inl hzero)
    have hkV : k ≠ a.poolInputTokenVault := by
      rintro rfl
      obtain ⟨programs', s'', h', hzero⟩ := exists_vault_emptied d hp hw.conserved
      obtain ⟨hle, -⟩ := hall programs' s'' h'
      omega
    obtain ⟨programs', s'', h', hzero⟩ := exists_account_emptied d hw hone hp hk hkV
    obtain ⟨-, hothers, havs⟩ := hall programs' s'' h'
    have hkP : k = a.poolAvsTokenVault := by
      by_contra hne
      have hle := hothers k v hv howner hne
      omega
    subst hkP
    exact ⟨rfl, hkV, by omega⟩
  · intro hsafe programs s' h
    obtain ⟨d, rfl⟩ := (execute_withdrawDelegatedStake_iff ..).1 h
    exact poolFundsKept_of_safe d hw hone hp hsafe

end Funds

namespace Sample

/-- A program that moves everything in the vault of the pool to the account of the AVS. -/
def thief : Programs := fun _ _ _ =>
  some [(tokenProgram, .transfer (getAssociatedTokenAddress pool tokenProgram inputMint)
    (getAssociatedTokenAddress avs tokenProgram inputMint) pool 40 none)]

/-- A forced exit of nothing, by a user who is not the delegate authority, empties the vault. -/
theorem vault_stolen : user ≠ (record 1000).delegateAuthority ∧ ∃ s',
    Runtime.execute ⟨findBump, thief⟩ (signedBy user) (.withdrawDelegatedStake exit 0)
      operating = .ok s' ∧ ¬ PoolFundsKept exit 0 operating s' := by
  refine ⟨by decide, ?_⟩
  obtain ⟨s', h, htest⟩ : ∃ s', Runtime.execute ⟨findBump, thief⟩ (signedBy user)
      (.withdrawDelegatedStake exit 0) operating = .ok s' ∧
      decide (s'.ledger.balance exit.poolInputTokenVault = 0) = true :=
    exists_eq_ok (by decide)
  refine ⟨s', h, ?_⟩
  rintro ⟨hle, -⟩
  have hbefore : operating.ledger.balance exit.poolInputTokenVault = 40 := by decide
  have hafter : s'.ledger.balance exit.poolInputTokenVault = 0 := by simpa using htest
  omega

theorem operating_oneEach : OneEach operating where
  mints := apart_ofLists (by decide)
  pools := by
    intro k r hr
    obtain ⟨rfl, -⟩ : k = pool ∧ record 1000 = r := by simpa [operating] using hr
    exact ⟨rfl, rfl⟩
  programs q := by cases q <;> rfl

/-- So the funds of this pool are not safe from every program. -/
theorem vault_at_risk : ¬ ∀ (programs : Programs) (s' : State),
    Runtime.execute ⟨findBump, programs⟩ (signedBy user) (.withdrawDelegatedStake exit 10)
      operating = .ok s' → PoolFundsKept exit 10 operating s' := by
  rw [withdrawDelegatedStake_funds operating_sound.toWellFormed operating_oneEach (by decide)
    exit_canSucceed]
  have hexposed : Exposed exit operating exit.poolInputTokenVault := by
    refine ⟨by decide, ⟨_, rfl, rfl, by decide⟩, ?_⟩
    rintro (hzero | ⟨v, m, hv, hfrozen, -⟩)
    · revert hzero
      decide
    · have hthawed : ∀ v ∈ operating.ledger.accounts exit.poolInputTokenVault,
          v.frozen = false := by decide
      rw [hthawed v hv] at hfrozen
      cases hfrozen
  exact fun hsafe => (hsafe _ hexposed).2.1 rfl

end Sample

end AdraLrt
