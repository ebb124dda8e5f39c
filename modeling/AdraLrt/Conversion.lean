import AdraLrt.ForcedExit

/-!
# The conversion of the amount

`calculate_input_token_amount` is left to the business logic. The handler of a withdrawal applies it
once. That of a forced exit applies it to what it undelegates, tests the vault against the result,
and then `unstake` applies it again to what it transfers. So the signer is paid `f (f amount)`
against `f amount` undelegated, and both routes and the vault agree exactly where the two are the
same (`convertsOnce_iff`).
-/

set_option autoImplicit false

namespace AdraLrt

open TokenLedger Checked

/-- The signer's account for the input tokens gains `n`, on top of what is burned there when the
pool's input token is its output token. -/
def WithdrawAccounts.Pays (a : WithdrawAccounts) (amount : UInt64) (s s' : State) (n : Nat) :
    Prop :=
  s'.ledger.balance a.signerInputTokenVault +
      (if a.signerInputTokenVault = a.signerOutputTokenVault then amount.toNat else 0) =
    s.ledger.balance a.signerInputTokenVault + n

theorem WithdrawAccounts.Pays.unique {a : WithdrawAccounts} {amount : UInt64} {s s' : State}
    {m n : Nat} (hm : a.Pays amount s s' m) (hn : a.Pays amount s s' n) : m = n := by
  unfold WithdrawAccounts.Pays at hm hn
  omega

/-- The forced exit from `s` to `s'` converted the amount once: it undelegated the converted amount,
paid it to the signer like a withdrawal of the same amount, left the vault as it was, and what left
the vault is what the guard had tested. -/
structure ConvertsOnce (f : UInt64 → UInt64) (rt : Runtime) (p : Privileges Pubkey)
    (a : WithdrawStakeAccounts) (amount : UInt64) (s s' : State) : Prop where
  undelegated : s'.ledger.balance a.poolAvsTokenVault + (f amount).toNat =
    s.ledger.balance a.poolAvsTokenVault
  paid : a.withdrawal.Pays amount s s' (f amount).toNat
  withdrawn : ∀ q t, withdrawWith f (rt.cx q) a.withdrawal amount s = .ok t →
    ∃ n, a.withdrawal.Pays amount s t n ∧ a.withdrawal.Pays amount s s' n
  vault : s'.ledger.balance a.poolInputTokenVault = s.ledger.balance a.poolInputTokenVault
  tested : ∀ d : WithdrawStakeRun f rt p a amount s, s' = { s with ledger := d.paid } →
    d.paid.balance a.poolInputTokenVault + (f amount).toNat = d.vault.amount

section Run

variable {avss : Set Pubkey} {avsMints : Finset Pubkey} {f : UInt64 → UInt64} {rt : Runtime}
  {p : Privileges Pubkey} {a : WithdrawStakeAccounts} {amount : UInt64} {s : State}

/-- An exchange at an honest AVS names no mint, so there is no fee on the input tokens. -/
theorem WithdrawStakeRun.inputMint_noFee (d : WithdrawStakeRun f rt p a amount s)
    (hl : WellFormed s.ledger) (hh : HonestPrograms avss avsMints rt.programs) {x : Mint Pubkey}
    (hx : s.ledger.mints a.inputTokenMint = some x) : x.transferFee = none := by
  obtain ⟨-, -, -, hex⟩ := hh _ _ _ _ _ _ _ d.avs
  -- the second of the two instructions is an unchecked transfer out of the vault of the AVS
  obtain ⟨l₁, hburn, hrest⟩ := (execAll_cons_eq_ok_iff ..).1 hex
  obtain ⟨l₂, hpay, -⟩ := (execAll_cons_eq_ok_iff ..).1 hrest
  obtain ⟨src, dst, fee, hok⟩ := (processTransfer_eq_ok_iff ..).1 ((exec_eq_ok_iff ..).1 hpay).2
  have hmoved := (exec_fundsMoved rfl d.burn_eq).trans (exec_fundsMoved rfl hburn)
  -- the tokens that the AVS pays are input tokens
  have hav := initIfNeeded_account_of_some d.init_eq d.accepted.avsInput_some
  have hav_mint := hl.associated _ _ _ d.avsInput
    (d.accepted.avsInput_key ▸ d.accepted.avsInput_some)
  obtain ⟨av, hav', hterms⟩ := hmoved.some_account _ d.avsInput hav
  obtain rfl : av = src := Option.some.inj (hav'.symm.trans hok.source_some)
  obtain ⟨n, hn⟩ := hmoved.some_mint _ x ((congrFun (initIfNeeded_mints d.init_eq) _).trans hx)
  have hfee := hok.fee_ok
  simp only [Ledger.transferFee, bind_eq_ok_iff, require_eq_ok_iff, hterms.mint, hav_mint] at hfee
  obtain ⟨-, hnone, -⟩ := hfee
  have hno : (x.withSupply n).transferFee = none := hnone _ hn
  exact hno

/-- What a forced exit does to the signer, to the AVS tokens of the pool and to its vault. -/
theorem WithdrawStakeRun.effect (d : WithdrawStakeRun f rt p a amount s)
    (hl : WellFormed s.ledger) (hh : HonestPrograms avss avsMints rt.programs)
    (hpool_signer : a.signer ≠ a.pool) (havs_signer : a.signer ≠ a.avs)
    (hmint : a.avsTokenMint ≠ a.inputTokenMint) :
    d.paid.balance a.poolAvsTokenVault + (f amount).toNat =
        s.ledger.balance a.poolAvsTokenVault ∧
      a.withdrawal.Pays amount s { s with ledger := d.paid } (f (f amount)).toNat ∧
      d.paid.balance a.poolInputTokenVault + (f (f amount)).toNat =
        s.ledger.balance a.poolInputTokenVault + (f amount).toNat ∧
      d.paid.balance a.poolInputTokenVault + (f (f amount)).toNat = d.vault.amount := by
  have hacc := d.accepted
  obtain ⟨havs_pool, -, -, hex⟩ := hh _ _ _ _ _ _ _ d.avs
  obtain ⟨houtput_poolAvs, houtput_avs, houtput_vault, -⟩ :=
    hacc.apart hpool_signer havs_signer havs_pool
  have havs_pool' : a.avs ≠ a.pool := Pubkey.ne_of_not_isPool (isPool_of_eq hacc.pool_eq) havs_pool
  have hinput_key := ((initIfNeeded_eq_ok_iff ..).1 d.init_eq).2.1
  have hvault_input : a.poolInputTokenVault ≠ a.signerInputTokenVault :=
    associated_ne_of_wallet hacc.poolInput_key hinput_key hpool_signer.symm
  have hpoolAvs_input : a.poolAvsTokenVault ≠ a.signerInputTokenVault :=
    associated_ne_of_wallet hacc.poolAvs_key hinput_key hpool_signer.symm
  have havs_input : a.avsInputTokenVault ≠ a.signerInputTokenVault :=
    associated_ne_of_wallet hacc.avsInput_key hinput_key havs_signer.symm
  have hvault_avs : a.poolInputTokenVault ≠ a.avsInputTokenVault :=
    associated_ne_of_wallet hacc.poolInput_key hacc.avsInput_key (Ne.symm havs_pool')
  have hpoolAvs_avs : a.poolAvsTokenVault ≠ a.avsInputTokenVault :=
    associated_ne_of_wallet hacc.poolAvs_key hacc.avsInput_key (Ne.symm havs_pool')
  have hpoolAvs_vault : a.poolAvsTokenVault ≠ a.poolInputTokenVault :=
    associated_ne_of_mint hacc.poolAvs_key hacc.poolInput_key hmint
  -- the payment is a checked transfer, so a fee would be taken if there were one
  have hfree : TokenIx.Free (.transfer a.poolInputTokenVault a.signerInputTokenVault a.pool
      (f (f amount)).toNat (some (a.inputTokenMint, d.inputMint.decimals))) d.undelegated :=
    namesNoFee_of_fundsMoved ((exec_fundsMoved rfl d.burn_eq).trans
      (execAll_fundsMoved (exchange_movesFunds _ _ _) hex)) fun x hx =>
        d.inputMint_noFee hl hh ((congrFun (initIfNeeded_mints d.init_eq) _).symm.trans hx)
  have h₀ := initIfNeeded_balance d.init_eq
  have h₁ := process_balance_of_free (by trivial) ((exec_eq_ok_iff ..).1 d.burn_eq).2
  have h₂ : ∀ k, d.undelegated.balance k + _ = d.burned.balance k + _ :=
    execAll_balance_of_free (exchange_free _ _ _) hex
  have h₃ := process_balance_of_free hfree ((exec_eq_ok_iff ..).1 d.pay_eq).2
  simp only [AvsAccounts.exchange, WithdrawStakeAccounts.avsAccounts, List.map_cons, List.map_nil,
    List.sum_cons, List.sum_nil, TokenIx.debited, TokenIx.credited] at h₁ h₂ h₃
  refine ⟨?_, ?_, ?_, ?_⟩
  · have b₀ := h₀ a.poolAvsTokenVault
    have b₁ := h₁ a.poolAvsTokenVault
    have b₂ := h₂ a.poolAvsTokenVault
    have b₃ := h₃ a.poolAvsTokenVault
    simp only [houtput_poolAvs.symm, hpoolAvs_avs, hpoolAvs_vault, hpoolAvs_input, if_true,
      if_false] at b₁ b₂ b₃
    omega
  · have b₀ := h₀ a.signerInputTokenVault
    have b₁ := h₁ a.signerInputTokenVault
    have b₂ := h₂ a.signerInputTokenVault
    have b₃ := h₃ a.signerInputTokenVault
    simp only [hpoolAvs_input.symm, havs_input.symm, hvault_input.symm, if_true, if_false] at b₂ b₃
    show d.paid.balance a.signerInputTokenVault +
        (if a.signerInputTokenVault = a.signerOutputTokenVault then amount.toNat else 0) =
      s.ledger.balance a.signerInputTokenVault + (f (f amount)).toNat
    omega
  · have b₀ := h₀ a.poolInputTokenVault
    have b₁ := h₁ a.poolInputTokenVault
    have b₂ := h₂ a.poolInputTokenVault
    have b₃ := h₃ a.poolInputTokenVault
    simp only [houtput_vault.symm, hpoolAvs_vault.symm, hvault_avs, hvault_input, if_true, if_false]
      at b₁ b₂ b₃
    omega
  · have b₃ := h₃ a.poolInputTokenVault
    rw [Ledger.balance_of_some d.vault_some] at b₃
    simp only [hvault_input, if_true, if_false] at b₃
    omega

/-- A withdrawal pays the converted amount. -/
theorem WithdrawRun.pays {b : WithdrawAccounts} (e : WithdrawRun f p b amount s)
    (hne : b.signer ≠ b.pool)
    (hfee : ∀ x, s.ledger.mints b.inputTokenMint = some x → x.transferFee = none) :
    b.Pays amount s { s with ledger := e.paid } (f amount).toNat := by
  have hacc := e.accepted
  have hvault : b.poolInputTokenVault ≠ b.signerInputTokenVault :=
    associated_ne_of_wallet hacc.poolInput_key hacc.signerInput_key hne.symm
  have hfree : TokenIx.Free (.transfer b.poolInputTokenVault b.signerInputTokenVault b.pool
      (f amount).toNat (some (b.inputTokenMint, e.inputMint.decimals))) e.burned :=
    namesNoFee_of_fundsMoved (exec_fundsMoved rfl e.burn_eq) hfee
  have b₁ := process_balance_of_free (by trivial) ((exec_eq_ok_iff ..).1 e.burn_eq).2
    b.signerInputTokenVault
  have b₂ := process_balance_of_free hfree ((exec_eq_ok_iff ..).1 e.pay_eq).2
    b.signerInputTokenVault
  simp only [TokenIx.debited, TokenIx.credited, hvault.symm, if_true, if_false] at b₁ b₂
  show e.paid.balance b.signerInputTokenVault +
      (if b.signerInputTokenVault = b.signerOutputTokenVault then amount.toNat else 0) =
    s.ledger.balance b.signerInputTokenVault + (f amount).toNat
  omega

end Run

/-- When a forced exit converts once. For every conversion, a forced exit at an honest AVS with a
token of its own that succeeds is paid as a withdrawal of the same amount is, gets what was
undelegated, leaves the vault as it was and was guarded against what it paid, if and only if
converting the converted amount again does not change it. -/
theorem convertsOnce_iff {avss : Set Pubkey} {avsMints : Finset Pubkey} {f : UInt64 → UInt64}
    {rt : Runtime} {p : Privileges Pubkey} {a : WithdrawStakeAccounts} {amount : UInt64}
    {s s' : State} (hl : WellFormed s.ledger) (hh : HonestPrograms avss avsMints rt.programs)
    (hmint : a.avsTokenMint ≠ a.inputTokenMint) (hpool : a.signer ≠ a.pool)
    (havs : a.signer ≠ a.avs)
    (h : withdrawDelegatedStakeWith f (rt.cx p) a amount s = .ok s') :
    ConvertsOnce f rt p a amount s s' ↔ f (f amount) = f amount := by
  obtain ⟨d, rfl⟩ := (withdrawDelegatedStakeWith_iff ..).1 h
  obtain ⟨hundelegated, hpaid, hvault, -⟩ := d.effect hl hh hpool havs hmint
  constructor
  · intro hconverts
    exact UInt64.toNat_inj.1 (hpaid.unique hconverts.paid)
  · intro hf
    refine ⟨hundelegated, hf ▸ hpaid, ?_, ?_, ?_⟩
    · intro q t ht
      obtain ⟨e, rfl⟩ := (withdrawWith_iff ..).1 ht
      have hnoFee := fun x hx => d.inputMint_noFee hl hh (x := x) hx
      exact ⟨_, e.pays hpool hnoFee, hf ▸ hpaid⟩
    · rw [hf] at hvault
      exact Nat.add_right_cancel hvault
    · intro d' _
      obtain ⟨-, -, -, htested⟩ := d'.effect hl hh hpool havs hmint
      rw [hf] at htested
      exact htested

namespace Sample

/-- A conversion that pays out no more than twenty-five tokens at a time. -/
def capped (amount : UInt64) : UInt64 := min amount 25

/-- A conversion that pays two input tokens for each output token. -/
def doubled (amount : UInt64) : UInt64 := 2 * amount

/-- Capping converts once. -/
theorem capped_once : ∃ s', withdrawDelegatedStakeWith capped
      (Runtime.cx ⟨findBump, registry.programs⟩ (signedBy user)) exit 50 operating = .ok s' ∧
    ConvertsOnce capped ⟨findBump, registry.programs⟩ (signedBy user) exit 50 operating s' := by
  obtain ⟨s', h, -⟩ : ∃ s', withdrawDelegatedStakeWith capped
      (Runtime.cx ⟨findBump, registry.programs⟩ (signedBy user)) exit 50 operating = .ok s' ∧
      true = true := exists_eq_ok (by decide)
  exact ⟨s', h, (convertsOnce_iff operating_sound.toWellFormed registry.honest (by decide)
    (by decide) (by decide) h).2 rfl⟩

/-- Doubling does not: ten output tokens are redeemed for twenty at the AVS and paid with forty. -/
theorem doubled_twice : ∃ s', withdrawDelegatedStakeWith doubled
      (Runtime.cx ⟨findBump, registry.programs⟩ (signedBy user)) exit 10 operating = .ok s' ∧
    ¬ ConvertsOnce doubled ⟨findBump, registry.programs⟩ (signedBy user) exit 10 operating s' := by
  obtain ⟨s', h, hpaid⟩ : ∃ s', withdrawDelegatedStakeWith doubled
      (Runtime.cx ⟨findBump, registry.programs⟩ (signedBy user)) exit 10 operating = .ok s' ∧
      decide (s'.ledger.balance exit.signerInputTokenVault = 40) = true := exists_eq_ok (by decide)
  refine ⟨s', h, fun hconverts => ?_⟩
  have htwenty := hconverts.paid
  have hzero : operating.ledger.balance exit.signerInputTokenVault = 0 := by decide
  have hdoubled : (doubled 10).toNat = 20 := by decide
  simp only [WithdrawAccounts.Pays, WithdrawStakeAccounts.withdrawal, of_decide_eq_true hpaid,
    hzero, hdoubled] at htwenty
  omega

end Sample

end AdraLrt
