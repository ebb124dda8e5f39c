import AdraLrt.Enabled
import AdraLrt.TokenLedger.Finite

/-!
# Redemption of AVS tokens

What an exit asks of the AVSs: whatever part of its AVS tokens the pool asks back is redeemed, now
and after any further transactions (`AlwaysHonours`). The AVSs of a registry do that. Their tokens
are covered by what they took in as long as they are in the first place (`attempt_solvent`), because
each exchange moves both by the same amount and nobody else can mint these tokens or take from that
vault. So a registry that is solvent honours every undelegation of tokens that the pool holds
(`Registry.alwaysHonours`).
-/

set_option autoImplicit false

namespace AdraLrt

open TokenLedger Checked

/-! ## The assumption -/

/-- The AVS at `avs` redeems `amount` of its tokens for the pool: its mint and its vault are in
place and a call of its program succeeds. -/
structure Redeems (programs : Programs) (tokenProgram pool inputMint : Pubkey) (s : State)
    (mint : Pubkey) (amount : UInt64) (avs avsProgram : Pubkey) : Prop where
  mint_some : ∃ x y, s.ledger.mints mint = some x ∧ s.ledger.mints inputMint = some y ∧
    x.program = tokenProgram ∧ x.mintAuthority = some avs ∧ x.freezeAuthority = some avs ∧
    x.decimals = y.decimals
  vault : ∃ w, s.ledger.accounts (getAssociatedTokenAddress avs tokenProgram inputMint) = some w ∧
    w.owner = avs
  called : ∃ cs l, AvsRun programs (AvsAccounts.derived tokenProgram pool avs mint inputMint)
    avsProgram .undelegate amount s l cs

/-- Whatever part of its AVS tokens the pool asks back is redeemed. -/
def Honours (programs : Programs) (avsMints : Finset Pubkey) (tokenProgram pool inputMint : Pubkey)
    (s : State) : Prop :=
  ∀ m ∈ avsMints, ∀ n : UInt64, 0 < n.toNat →
    n.toNat ≤ s.ledger.balance (getAssociatedTokenAddress pool tokenProgram m) →
    ∃ avs avsProgram, Redeems programs tokenProgram pool inputMint s m n avs avsProgram

/-- No account is frozen. -/
def Thawed (l : Ledger Pubkey) : Prop :=
  ∀ k a, l.accounts k = some a → a.frozen = false

theorem thawed_of_fundsMoved {l l' : Ledger Pubkey} (h : FundsMoved l l') (hl : Thawed l) :
    Thawed l' := by
  intro k b hb
  obtain ⟨a, ha, hab⟩ := h.account_of_some hb
  exact hab.frozen.trans (hl k a ha)

theorem thawed_ofLists {mints : List (Pubkey × Mint Pubkey)}
    {accounts : List (Pubkey × TokenAccount Pubkey)} (h : ∀ e ∈ accounts, e.2.frozen = false) :
    Thawed (Ledger.ofLists mints accounts) :=
  fun _ _ ha => h _ (mem_of_account ha)

/-- So it is after any further transactions that the AVSs at `avss` did not sign, as long as nothing
is frozen. -/
def AlwaysHonours (findBump : Pubkey → UInt8) (programs : Programs) (avss : Set Pubkey)
    (avsMints : Finset Pubkey) (tokenProgram pool inputMint : Pubkey) (s : State) : Prop :=
  ∀ bs, (∀ x ∈ bs, x.FromOutside ∧ x.NotSignedBy avss ∧ x.Uses (· = programs)) →
    Thawed (run findBump s bs).ledger →
      Honours programs avsMints tokenProgram pool inputMint (run findBump s bs)

section Honours

variable {findBump : Pubkey → UInt8} {programs : Programs} {avss : Set Pubkey}
  {avsMints : Finset Pubkey} {tokenProgram pool inputMint : Pubkey} {a : Action} {s s' : State}

theorem AlwaysHonours.now
    (hs : AlwaysHonours findBump programs avss avsMints tokenProgram pool inputMint s)
    (ht : Thawed s.ledger) : Honours programs avsMints tokenProgram pool inputMint s :=
  hs [] (fun _ hx => by cases hx) ht

theorem AlwaysHonours.step
    (hs : AlwaysHonours findBump programs avss avsMints tokenProgram pool inputMint s)
    (hp : a.FromOutside) (hks : a.NotSignedBy avss) (hu : a.Uses (· = programs))
    (h : a.attempt findBump s = .ok s') :
    AlwaysHonours findBump programs avss avsMints tokenProgram pool inputMint s' := by
  intro bs hbs ht
  have hrun := hs (a :: bs) (by
    intro x hx
    rcases List.mem_cons.1 hx with rfl | hx
    · exact ⟨hp, hks, hu⟩
    · exact hbs x hx)
  rw [run, Rollback.run_cons, Rollback.apply_of_ok h] at hrun
  exact hrun ht

end Honours

/-! ## Solvent registries -/

/-- Every AVS of the registry controls its mint and its accounts, and its tokens are covered by its
vault. -/
structure Solvent (R : Registry) (l : Ledger Pubkey) : Prop where
  mint : ∀ m ∈ R.mints, ∃ x y, l.mints m = some x ∧
    l.mints (R.avs m).inputTokenMint = some y ∧ x.program = (R.avs m).tokenProgram ∧
    x.mintAuthority = some (R.avs m).address ∧ x.freezeAuthority = some (R.avs m).address ∧
    x.decimals = y.decimals
  vault : ∀ m ∈ R.mints, ∃ w, l.accounts (R.avs m).vault = some w
  covered : ∀ m ∈ R.mints, l.supply m ≤ l.balance (R.avs m).vault
  held : InOwnHands R.addresses l

theorem Registry.address_mem {R : Registry} {m : Pubkey} (hm : m ∈ R.mints) :
    (R.avs m).address ∈ R.addresses :=
  ⟨m, hm, rfl⟩

theorem Solvent.vault_held {R : Registry} {l : Ledger Pubkey} (hs : Solvent R l) {m : Pubkey}
    (hm : m ∈ R.mints) {w : TokenAccount Pubkey} (hw : l.accounts (R.avs m).vault = some w) :
    w.Held (R.avs m).address :=
  hs.held _ _ _ w (Registry.address_mem hm) hw

section Solvency

variable {findBump : Pubkey → UInt8} {R : Registry} {a : Action} {s s' : State}

/-- An instruction moves the supply of an AVS token no higher than the vault of the AVS. -/
theorem call_covered {p : Privileges Pubkey} {c : Call}
    (h : Runtime.execute ⟨findBump, R.programs⟩ p c s = .ok s')
    (hp : ∀ k ∈ R.addresses, p.signer k = false) (hs : Solvent R s.ledger) {m : Pubkey}
    (hm : m ∈ R.mints) :
    c.debited (R.avs m).vault + c.minted m ≤ c.credited (R.avs m).vault + c.burned m := by
  have hkey : (R.avs m).vault = getAssociatedTokenAddress (R.avs m).address (R.avs m).tokenProgram
      (R.avs m).inputTokenMint := rfl
  have hnotPool : ∀ {mint : Pubkey} {bump : UInt8}, (R.avs m).address ≠ poolAddress mint bump := by
    intro mint bump heq
    cases heq
  -- the vault of an AVS is associated neither with a signer nor with a pool
  have hwallet : ∀ {k w t x : Pubkey}, p.signer w = true → k = getAssociatedTokenAddress w t x →
      (R.avs m).vault ≠ k := by
    intro k w t x hw hk
    apply associated_ne_of_wallet hkey hk
    rintro rfl
    rw [hp _ (Registry.address_mem hm)] at hw
    cases hw
  have hpool : ∀ {k pool mint t x : Pubkey} {bump : UInt8}, pool = poolAddress mint bump →
      k = getAssociatedTokenAddress pool t x → (R.avs m).vault ≠ k := by
    rintro k pool mint t x bump rfl hk
    exact associated_ne_of_wallet hkey hk hnotPool
  have hvault : ∀ {m' : Pubkey}, m' ∈ R.mints → (R.avs m).vault = (R.avs m').vault → m = m' := by
    intro m' hm' heq
    exact R.address_inj m hm m' hm' (getAssociatedTokenAddress_inj.1 heq).1
  cases c with
  | initializePool a limit => exact Nat.le_refl _
  | transferDelegateAuthority a => exact Nat.le_refl _
  | updateMintLimit a limit => exact Nat.le_refl _
  | deposit a amount =>
      obtain ⟨d, -⟩ := (execute_deposit_iff ..).1 h
      have hacc := d.accepted
      -- a mint has one authority, which cannot be a pool and an AVS at once
      have hmint : m ≠ a.outputTokenMint := by
        rintro rfl
        obtain ⟨x, -, hx, -, -, hauth, -⟩ := hs.mint _ hm
        obtain rfl := Option.some.inj (hx.symm.trans hacc.outputMint_some)
        have haddress := Option.some.inj (hauth.symm.trans hacc.outputMint_authority)
        rw [hacc.pool_eq] at haddress
        exact hnotPool haddress
      have hsource := hwallet hacc.signer hacc.signerInput_key
      simp [Call.debited, Call.minted, hmint, hsource]
  | withdraw a amount =>
      obtain ⟨d, -⟩ := (execute_withdraw_iff ..).1 h
      have hacc := d.accepted
      have hsource := hwallet hacc.signer hacc.signerOutput_key
      have hpoolInput := hpool hacc.pool_eq hacc.poolInput_key
      simp [Call.debited, Call.minted, hsource, hpoolInput]
  | withdrawDelegatedStake a amount =>
      obtain ⟨d, -⟩ := (execute_withdrawDelegatedStake_iff ..).1 h
      have hacc := d.accepted
      obtain ⟨⟨hmem, -, -, -, -, hserved⟩, -⟩ := Registry.serves_of_avsRun d.avs
      have hsource := hwallet hacc.signer hacc.signerOutput_key
      have hpoolAvs := hpool hacc.pool_eq hacc.poolAvs_key
      have hpoolInput := hpool hacc.pool_eq hacc.poolInput_key
      by_cases havs : (R.avs m).vault = a.avsInputTokenVault
      · have hmine : m = a.avsTokenMint := hvault hmem (havs.trans hserved.symm)
        simp only [Call.debited, Call.minted, Call.burned, if_pos havs, if_pos hmine,
          if_neg hsource, if_neg hpoolAvs, if_neg hpoolInput]
        omega
      · simp [Call.debited, Call.minted, hsource, hpoolAvs, hpoolInput, havs]
  | delegate a amount =>
      obtain ⟨d, -, -⟩ := (execute_delegate_iff ..).1 h
      have hacc := d.accepted
      obtain ⟨⟨hmem, -, -, -, -, hserved⟩, -⟩ := Registry.serves_of_avsRun d.avs
      have hpoolInput := hpool hacc.pool_eq hacc.poolInput_key
      by_cases hmine : m = a.avsTokenMint
      · subst hmine
        have havs : (R.avs a.avsTokenMint).vault = a.avsInputTokenVault := hserved
        simp only [Call.debited, Call.minted, Call.credited, if_pos havs, if_neg hpoolInput,
          if_true]
        omega
      · simp [Call.debited, Call.minted, hmine, hpoolInput]
  | undelegate a amount =>
      obtain ⟨d, -, -⟩ := (execute_undelegate_iff ..).1 h
      have hacc := d.accepted
      obtain ⟨⟨hmem, -, -, -, -, hserved⟩, -⟩ := Registry.serves_of_avsRun d.avs
      have hpoolAvs := hpool hacc.pool_eq ((initIfNeeded_eq_ok_iff ..).1 d.init_eq).2.1
      by_cases havs : (R.avs m).vault = a.avsInputTokenVault
      · have hmine : m = a.avsTokenMint := hvault hmem (havs.trans hserved.symm)
        simp only [Call.debited, Call.minted, Call.burned, if_pos havs, if_pos hmine,
          if_neg hpoolAvs]
        omega
      · simp [Call.debited, Call.minted, hpoolAvs, havs]

theorem uses_honest (hu : a.Uses (· = R.programs)) :
    a.Uses (HonestPrograms R.addresses R.mints) := by
  refine hu.mono ?_
  rintro programs rfl
  exact R.honest

/-- Every transaction that no AVS signs keeps the registry solvent. -/
theorem attempt_solvent (hp : a.FromOutside) (hks : a.NotSignedBy R.addresses)
    (hu : a.Uses (· = R.programs)) (hf : s.ledger.FeeFree) (h : a.attempt findBump s = .ok s')
    (hs : Solvent R s.ledger) : Solvent R s'.ledger := by
  have hfunds := (uses_honest hu).fundsOnly
  have hsigns : ∀ m ∈ R.mints, a.privileges.signer (R.avs m).address = false :=
    fun _ hm => hks _ (Registry.address_mem hm)
  have hkept : ∀ m ∈ R.mints, TermsKept (R.avs m).address s.ledger s'.ledger :=
    fun m hm => attempt_termsKept (hsigns m hm) hfunds h
  refine ⟨?_, ?_, ?_, attempt_inOwnHands hks hp hfunds h hs.held⟩
  · intro m hm
    obtain ⟨x, y, hx, hy, hxp, hxa, hxf, hd⟩ := hs.mint m hm
    obtain ⟨x', hx', hxp', hxd', hauth⟩ := (hkept m hm).mint m x hx
    obtain ⟨y', hy', -, hyd', -⟩ := (hkept m hm).mint _ y hy
    obtain ⟨hxa', hxf'⟩ := hauth hxa hxf
    exact ⟨x', y', hx', hy', hxp'.trans hxp, hxa', hxf', hxd'.trans (hd.trans hyd'.symm)⟩
  · intro m hm
    obtain ⟨w, hw⟩ := hs.vault m hm
    exact (hkept m hm).account _ w hw (hs.vault_held hm hw)
  · intro m hm
    have hle := hs.covered m hm
    cases a with
    | call programs p c =>
        obtain rfl : programs = R.programs := hu
        have hbalance := execute_balance h R.honest (feeFree_call hf c) (R.avs m).vault
        have hsupply := execute_supply h R.honest m
        have hcovered := call_covered h hks hs hm
        omega
    | token p program ix =>
        -- others can pay into the vault and burn tokens, but neither take out nor mint
        obtain ⟨-, -, l, hl', rfl⟩ := attempt_token_iff.1 h
        obtain ⟨x, -, hx, -, -, hauth, -⟩ := hs.mint m hm
        have hbalance : l.balance (R.avs m).vault =
            s.ledger.balance (R.avs m).vault + ix.credited (R.avs m).vault :=
          exec_balance_associated hf hs.held (hsigns m hm) hl' (Registry.address_mem hm) _ _
        have hsupply := exec_supply_of_authority (hsigns m hm) hl' hx hauth
        show l.supply m ≤ l.balance (R.avs m).vault
        omega
    | create p key wallet tokenProgram mint =>
        obtain ⟨-, -, x, -, hnone, -, -, rfl⟩ := attempt_create_iff.1 h
        show s.ledger.supply m ≤ (s.ledger.setAccount _ _).balance _
        rw [Ledger.balance_create hnone]
        exact hle

theorem run_solvent {as : List Action}
    (has : ∀ x ∈ as, x.FromOutside ∧ x.NotSignedBy R.addresses ∧ x.Uses (· = R.programs))
    (hsound : Sound findBump s) (hf : s.ledger.FeeFree) (hs : Solvent R s.ledger) :
    Sound findBump (run findBump s as) ∧ (run findBump s as).ledger.FeeFree ∧
      Solvent R (run findBump s as).ledger := by
  refine Rollback.run_invariant (I := fun t : State => Sound findBump t ∧ t.ledger.FeeFree ∧
    Solvent R t.ledger) ?_ ⟨hsound, hf, hs⟩
  rintro x hx t t' ⟨ht, hft, hst⟩ h
  obtain ⟨hp, hks, hu⟩ := has x hx
  have hfunds := (uses_honest hu).fundsOnly
  exact ⟨attempt_sound hp hfunds h ht, attempt_feeFree hft hfunds h,
    attempt_solvent hp hks hu hft h hst⟩

/-! ## Honoured redemptions -/

/-- A solvent AVS redeems what the pool holds: the pool can burn its tokens, and they are covered by
what the AVS can pay. -/
theorem Solvent.redeems {tokenProgram pool inputMint outputMint m : Pubkey} {n : UInt64}
    (hs : Solvent R s.ledger) (hl : LedgerSound s.ledger) (hf : s.ledger.FeeFree)
    (ht : Thawed s.ledger) (hpool : pool.isPool = true)
    (hterms : PoolSound s.ledger tokenProgram pool inputMint outputMint) (hm : m ∈ R.mints)
    (hinput : (R.avs m).inputTokenMint = inputMint)
    (hprogram : (R.avs m).tokenProgram = tokenProgram) (hne : inputMint ≠ m) (hpos : 0 < n.toNat)
    (hle : n.toNat ≤ s.ledger.balance (getAssociatedTokenAddress pool tokenProgram m)) :
    Redeems R.programs tokenProgram pool inputMint s m n (R.avs m).address (R.avs m).program := by
  obtain ⟨x, y, hx, hy, hxp, hxa, hxf, hd⟩ := hs.mint m hm
  obtain ⟨w, hw⟩ := hs.vault m hm
  obtain ⟨v, hv⟩ := hterms.vault
  obtain ⟨u, hu⟩ := Ledger.exists_of_balance_pos (hpos.trans_le hle)
  subst hinput hprogram
  refine ⟨⟨x, y, hx, hy, hxp, hxa, hxf, hd⟩, ⟨w, hw, (hs.vault_held hm hw).owner_eq⟩, ?_⟩
  have hcovered := hs.covered m hm
  have hheld := hl.conserved.balance_le hu
  rw [hl.associated _ _ _ u hu] at hheld
  rw [Ledger.balance_of_some hw] at hcovered
  rw [Ledger.balance_of_some hu] at hle
  have hready : (AvsAccounts.derived (R.avs m).tokenProgram pool (R.avs m).address m
      (R.avs m).inputTokenMint).Ready (R.avs m).program s.ledger x y w v u := {
    controls := (R.avs m).controls_address
    isPool := hpool
    mints_ne := hne
    avsMint_some := hx
    avsMint_program := hxp
    avsMint_authority := hxa
    inputMint_some := hy
    inputMint_program := hterms.inputMint_program hy
    inputMint_fee := hf _ y hy
    avsInput_key := rfl
    avsInput_some := hw
    avsInput_thawed := ht _ w hw
    poolInput_key := rfl
    poolInput_some := hv
    poolInput_thawed := ht _ v hv
    poolAvs_key := rfl
    poolAvs_some := hu
    poolAvs_thawed := ht _ u hu }
  -- what the pool holds is covered by what the AVS holds
  obtain ⟨l', hex⟩ := hready.exists_undelegate hl (hs.vault_held hm hw) hle
    (hle.trans (hheld.trans hcovered))
  exact ⟨_, l', Registry.avsRun_of_serves ⟨hm, rfl, rfl, rfl, rfl, rfl⟩ hterms.admitted hex⟩

/-- A solvent registry whose AVSs all take in the input token of the pool always honours. -/
theorem Registry.alwaysHonours {tokenProgram pool : Pubkey} {r : LRTPool}
    (hs : Solvent R s.ledger) (hsound : Sound findBump s) (hf : s.ledger.FeeFree)
    (hr : s.pools pool = some r)
    (hterms : PoolSound s.ledger tokenProgram pool r.inputTokenMint r.outputTokenMint)
    (hin : r.inputTokenMint ∉ R.mints)
    (havs : ∀ m ∈ R.mints, (R.avs m).inputTokenMint = r.inputTokenMint ∧
      (R.avs m).tokenProgram = tokenProgram) :
    AlwaysHonours findBump R.programs R.addresses R.mints tokenProgram pool r.inputTokenMint s := by
  have hpool := hsound.home.isPool hr
  intro bs hbs ht
  obtain ⟨hsound', hf', hs'⟩ := run_solvent hbs hsound hf hs
  have hterms' := run_poolSound hpool
    (fun x hx => ⟨(hbs x hx).1, (uses_honest (hbs x hx).2.2).fundsOnly⟩) hsound hterms
  intro m hm n hpos hle
  obtain ⟨hinput, hprogram⟩ := havs m hm
  have hne : r.inputTokenMint ≠ m := by
    rintro rfl
    exact hin hm
  exact ⟨_, _, hs'.redeems hsound'.ledger hf' ht hpool hterms' hm hinput hprogram hne hpos hle⟩

end Solvency

end AdraLrt
