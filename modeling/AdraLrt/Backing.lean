import AdraLrt.Sample
import Mathlib.Algebra.BigOperators.Group.Finset.Basic

/-!
# Full backing

The assets of a pool are the tokens in its input vault and in its AVS-token accounts. With honest
AVSs every instruction of the program changes the assets and the supply of output tokens by the same
amount, in whatever order and for whatever pool it runs; only token-program transactions of users
can pull the two apart, by donating to the pool or by burning output tokens. So over a whole run the
assets are the supply together with everything donated and everything burned that way
(`full_backing`).
-/

set_option autoImplicit false

namespace AdraLrt

open TokenLedger Checked

section Assets

variable (avsMints : Finset Pubkey) (tokenProgram pool inputMint : Pubkey)

/-- The sum of `f` over the vault of a pool and its AVS-token accounts. -/
def overAssets (f : Pubkey → Nat) : Nat :=
  f (getAssociatedTokenAddress pool tokenProgram inputMint) +
    ∑ m ∈ avsMints, f (getAssociatedTokenAddress pool tokenProgram m)

/-- The tokens in the vault and in the AVS-token accounts of the pool. -/
def assets (s : State) : Nat :=
  overAssets avsMints tokenProgram pool inputMint s.ledger.balance

theorem overAssets_add (f g : Pubkey → Nat) :
    overAssets avsMints tokenProgram pool inputMint (fun k => f k + g k) =
      overAssets avsMints tokenProgram pool inputMint f +
        overAssets avsMints tokenProgram pool inputMint g := by
  simp only [overAssets, Finset.sum_add_distrib]
  omega

variable {avsMints tokenProgram pool inputMint}

/-- A contribution to the vault counts once. -/
theorem overAssets_vault (h : inputMint ∉ avsMints) (n : Nat) :
    overAssets avsMints tokenProgram pool inputMint
        (fun k => if k = getAssociatedTokenAddress pool tokenProgram inputMint then n else 0) =
      n := by
  have hsum : ∑ m ∈ avsMints, (if getAssociatedTokenAddress pool tokenProgram m =
      getAssociatedTokenAddress pool tokenProgram inputMint then n else 0) = 0 := by
    refine Finset.sum_eq_zero fun m hm => if_neg ?_
    intro heq
    cases heq
    exact h hm
  simp [overAssets, hsum]

/-- A contribution to one of the AVS-token accounts counts once. -/
theorem overAssets_avs (h : inputMint ∉ avsMints) {mint : Pubkey} (hmint : mint ∈ avsMints)
    (n : Nat) :
    overAssets avsMints tokenProgram pool inputMint
      (fun k => if k = getAssociatedTokenAddress pool tokenProgram mint then n else 0) = n := by
  have hvault : getAssociatedTokenAddress pool tokenProgram inputMint ≠
      getAssociatedTokenAddress pool tokenProgram mint := by
    intro heq
    cases heq
    exact h hmint
  have hsum : ∑ m ∈ avsMints, (if getAssociatedTokenAddress pool tokenProgram m =
      getAssociatedTokenAddress pool tokenProgram mint then n else 0) = n := by
    rw [Finset.sum_eq_single mint]
    · simp
    · intro m _ hne
      refine if_neg ?_
      intro heq
      cases heq
      exact hne rfl
    · intro hno
      exact (hno hmint).elim
  simp only [overAssets, hvault, if_false, hsum, Nat.zero_add]

/-- A contribution to an account of another wallet does not count. -/
theorem overAssets_of_ne {wallet t m : Pubkey} (h : wallet ≠ pool) (n : Nat) :
    overAssets avsMints tokenProgram pool inputMint
      (fun k => if k = getAssociatedTokenAddress wallet t m then n else 0) = 0 := by
  have hne : ∀ j, getAssociatedTokenAddress pool tokenProgram j ≠
      getAssociatedTokenAddress wallet t m := by
    intro j heq
    cases heq
    exact h rfl
  simp [overAssets, hne]

end Assets

/-! ## Programs of mints and accounts -/

/-- An associated account exists only under the program of its mint. -/
theorem LedgerSound.mint_program {l : Ledger Pubkey} (hl : LedgerSound l)
    {wallet tokenProgram mint : Pubkey} {a : TokenAccount Pubkey}
    (h : l.accounts (getAssociatedTokenAddress wallet tokenProgram mint) = some a) :
    ∃ x, l.mints mint = some x ∧ x.program = tokenProgram := by
  obtain ⟨x, hx, hp⟩ := hl.mint_some _ a h
  rw [hl.associated _ _ _ a h] at hx
  exact ⟨x, hx, hp.trans (hl.program _ _ _ a h)⟩

theorem PoolSound.inputMint_program {l : Ledger Pubkey} {tokenProgram pool inputMint outputMint :
    Pubkey} (h : PoolSound l tokenProgram pool inputMint outputMint) {x : Mint Pubkey}
    (hx : l.mints inputMint = some x) : x.program = tokenProgram := by
  obtain ⟨im, -, him, himp, -⟩ := h.mints
  obtain rfl := Option.some.inj (hx.symm.trans him)
  exact himp

/-! ## One step -/

section Call

variable {findBump : Pubkey → UInt8} {avss : Set Pubkey} {avsMints : Finset Pubkey} {rt : Runtime}
  {p : Privileges Pubkey} {c : Call} {s s' : State} {pool tokenProgram : Pubkey} {r : LRTPool}

/-- In a delegation, of whatever pool, the vault and the account for the AVS tokens count alike and
the vault of the AVS does not count. -/
theorem DelegateRun.overAssets_eq {a : DelegateAccounts} {name : InstructionName} {amount : UInt64}
    (d : DelegateRun rt p a name amount s) (hh : HonestPrograms avss avsMints rt.programs)
    (hisPool : pool.isPool = true) (hr : s.pools pool = some r)
    (hpool : PoolSound s.ledger tokenProgram pool r.inputTokenMint r.outputTokenMint)
    (hin : r.inputTokenMint ∉ avsMints) (n : Nat) :
    overAssets avsMints tokenProgram pool r.inputTokenMint
        (fun k => if k = a.avsInputTokenVault then n else 0) = 0 ∧
      overAssets avsMints tokenProgram pool r.inputTokenMint
          (fun k => if k = a.poolAvsTokenVault then n else 0) =
        overAssets avsMints tokenProgram pool r.inputTokenMint
          (fun k => if k = a.poolInputTokenVault then n else 0) := by
  have hacc := d.accepted
  obtain ⟨havs, -, hmem, -⟩ := hh _ _ _ _ _ _ _ d.avs
  refine ⟨?_, ?_⟩
  · rw [hacc.avsInput_key]
    exact overAssets_of_ne (Pubkey.ne_of_not_isPool hisPool havs) n
  · rw [((initIfNeeded_eq_ok_iff ..).1 d.init_eq).2.1, hacc.poolInput_key]
    by_cases hmine : a.pool = pool
    · -- the token program of the call is that of the pool, so its two accounts are among the assets
      obtain rfl := Option.some.inj (hr.symm.trans (hmine ▸ hacc.pool_some))
      have htp := hpool.inputMint_program (hacc.inputMint_eq ▸ hacc.inputMint_some)
      rw [hmine, hacc.inputMint_eq, ← hacc.inputMint_program, htp, overAssets_vault hin]
      exact overAssets_avs hin hmem n
    · rw [overAssets_of_ne hmine, overAssets_of_ne hmine]

/-- Every instruction of the program changes the assets and the supply of output tokens of a pool by
the same amount. The cases are split by whether the instruction is one of this pool: otherwise it
touches neither its accounts nor its output mint. -/
theorem call_balanced (h : rt.execute p c s = .ok s')
    (hh : HonestPrograms avss avsMints rt.programs)
    (hp : ∀ k, p.signer k = true → k.isReserved = false) (hs : Sound findBump s)
    (hr : s.pools pool = some r)
    (hpool : PoolSound s.ledger tokenProgram pool r.inputTokenMint r.outputTokenMint)
    (hin : r.inputTokenMint ∉ avsMints) (hout : r.outputTokenMint ∉ avsMints) :
    overAssets avsMints tokenProgram pool r.inputTokenMint c.credited + c.burned r.outputTokenMint =
      overAssets avsMints tokenProgram pool r.inputTokenMint c.debited +
        c.minted r.outputTokenMint := by
  have hisPool := hs.home.isPool hr
  -- the output mint of another pool is another mint
  have hother : ∀ {k : Pubkey} {r' : LRTPool}, s.pools k = some r' → k ≠ pool →
      r.outputTokenMint ≠ r'.outputTokenMint := by
    intro k r' hr' hne heq
    exact hne (hs.home.key_unique hr' hr heq.symm)
  cases c with
  | initializePool a limit => rfl
  | transferDelegateAuthority a => rfl
  | updateMintLimit a limit => rfl
  | deposit a amount =>
      obtain ⟨d, -⟩ := (execute_deposit_iff ..).1 h
      have hacc := d.accepted
      have hwallet := Pubkey.ne_of_not_isReserved hisPool (hp _ hacc.signer)
      have hso := ((initIfNeeded_eq_ok_iff ..).1 d.init_eq).2.1
      show overAssets _ _ _ _ (fun k => (if k = a.poolInputTokenVault then amount.toNat else 0) +
          (if k = a.signerOutputTokenVault then amount.toNat else 0)) + 0 =
        overAssets _ _ _ _ (fun k => if k = a.signerInputTokenVault then amount.toNat else 0) +
          (if r.outputTokenMint = a.outputTokenMint then amount.toNat else 0)
      rw [overAssets_add, hso, hacc.signerInput_key, overAssets_of_ne hwallet,
        overAssets_of_ne hwallet, hacc.poolInput_key]
      by_cases hmine : a.pool = pool
      · obtain rfl := Option.some.inj (hr.symm.trans (hmine ▸ hacc.pool_some))
        -- `Deposit` takes the vault under the legacy program, which is that of the mint anyway
        obtain ⟨x, hx, hxp⟩ := hs.ledger.mint_program (hacc.poolInput_key ▸ hacc.poolInput_some)
        have htp := hpool.inputMint_program (hacc.inputMint_eq ▸ hx)
        rw [hmine, hacc.inputMint_eq, ← hxp, htp, overAssets_vault hin,
          if_pos hacc.outputMint_eq.symm]
        omega
      · rw [overAssets_of_ne hmine, if_neg (hacc.outputMint_eq ▸ hother hacc.pool_some hmine)]
  | withdraw a amount =>
      obtain ⟨d, -⟩ := (execute_withdraw_iff ..).1 h
      have hacc := d.accepted
      have hwallet := Pubkey.ne_of_not_isReserved hisPool (hp _ hacc.signer)
      show overAssets _ _ _ _ (fun k => if k = a.signerInputTokenVault then amount.toNat else 0) +
          (if r.outputTokenMint = a.outputTokenMint then amount.toNat else 0) =
        overAssets _ _ _ _ (fun k => (if k = a.signerOutputTokenVault then amount.toNat else 0) +
          (if k = a.poolInputTokenVault then amount.toNat else 0)) + 0
      rw [overAssets_add, hacc.signerOutput_key, hacc.signerInput_key, overAssets_of_ne hwallet,
        overAssets_of_ne hwallet, hacc.poolInput_key]
      by_cases hmine : a.pool = pool
      · obtain rfl := Option.some.inj (hr.symm.trans (hmine ▸ hacc.pool_some))
        have htp := hpool.inputMint_program (hacc.inputMint_eq ▸ hacc.inputMint_some)
        rw [hmine, hacc.inputMint_eq, ← hacc.inputMint_program, htp, overAssets_vault hin,
          if_pos hacc.outputMint_eq.symm]
        omega
      · rw [overAssets_of_ne hmine, if_neg (hacc.outputMint_eq ▸ hother hacc.pool_some hmine)]
  | withdrawDelegatedStake a amount =>
      obtain ⟨d, -⟩ := (execute_withdrawDelegatedStake_iff ..).1 h
      have hacc := d.accepted
      have hwallet := Pubkey.ne_of_not_isReserved hisPool (hp _ hacc.signer)
      have hsi := ((initIfNeeded_eq_ok_iff ..).1 d.init_eq).2.1
      obtain ⟨havs, -, hmem', -⟩ := hh _ _ _ _ _ _ _ d.avs
      have havsNe : a.avs ≠ pool := Pubkey.ne_of_not_isPool hisPool havs
      have hmem : a.avsTokenMint ∈ avsMints := hmem'
      -- what the AVS burns is not the output token of any pool in question
      have hmint : r.outputTokenMint ≠ a.avsTokenMint := by
        intro heq
        exact hout (heq ▸ hmem)
      show overAssets _ _ _ _ (fun k => (if k = a.poolInputTokenVault then amount.toNat else 0) +
          (if k = a.signerInputTokenVault then amount.toNat else 0)) +
          ((if r.outputTokenMint = a.outputTokenMint then amount.toNat else 0) +
            (if r.outputTokenMint = a.avsTokenMint then amount.toNat else 0)) =
        overAssets _ _ _ _ (fun k => (if k = a.signerOutputTokenVault then amount.toNat else 0) +
          (if k = a.poolAvsTokenVault then amount.toNat else 0) +
          (if k = a.avsInputTokenVault then amount.toNat else 0) +
          (if k = a.poolInputTokenVault then amount.toNat else 0)) + 0
      rw [overAssets_add, overAssets_add, overAssets_add, overAssets_add, hacc.signerOutput_key,
        hsi, overAssets_of_ne hwallet, overAssets_of_ne hwallet, hacc.poolInput_key,
        hacc.avsInput_key, overAssets_of_ne havsNe, hacc.poolAvs_key, if_neg hmint]
      by_cases hmine : a.pool = pool
      · obtain rfl := Option.some.inj (hr.symm.trans (hmine ▸ hacc.pool_some))
        have htp := hpool.inputMint_program (hacc.inputMint_eq ▸ hacc.inputMint_some)
        rw [hmine, hacc.inputMint_eq, ← hacc.inputMint_program, htp, overAssets_vault hin,
          overAssets_avs hin hmem, if_pos hacc.outputMint_eq.symm]
        omega
      · rw [overAssets_of_ne hmine, overAssets_of_ne hmine,
          if_neg (hacc.outputMint_eq ▸ hother hacc.pool_some hmine)]
  | delegate a amount =>
      obtain ⟨d, -, -⟩ := (execute_delegate_iff ..).1 h
      obtain ⟨havs, hpoolAvs⟩ := d.overAssets_eq hh hisPool hr hpool hin amount.toNat
      obtain ⟨-, -, hmem, -⟩ := hh _ _ _ _ _ _ _ d.avs
      have hmint : r.outputTokenMint ≠ a.avsTokenMint := (ne_of_mem_of_not_mem hmem hout).symm
      show overAssets _ _ _ _ (fun k => (if k = a.avsInputTokenVault then amount.toNat else 0) +
          (if k = a.poolAvsTokenVault then amount.toNat else 0)) + 0 =
        overAssets _ _ _ _ (fun k => if k = a.poolInputTokenVault then amount.toNat else 0) +
          (if r.outputTokenMint = a.avsTokenMint then amount.toNat else 0)
      rw [overAssets_add, havs, hpoolAvs, if_neg hmint]
      omega
  | undelegate a amount =>
      obtain ⟨d, -, -⟩ := (execute_undelegate_iff ..).1 h
      obtain ⟨havs, hpoolAvs⟩ := d.overAssets_eq hh hisPool hr hpool hin amount.toNat
      obtain ⟨-, -, hmem, -⟩ := hh _ _ _ _ _ _ _ d.avs
      have hmint : r.outputTokenMint ≠ a.avsTokenMint := (ne_of_mem_of_not_mem hmem hout).symm
      show overAssets _ _ _ _ (fun k => if k = a.poolInputTokenVault then amount.toNat else 0) +
          (if r.outputTokenMint = a.avsTokenMint then amount.toNat else 0) =
        overAssets _ _ _ _ (fun k => (if k = a.poolAvsTokenVault then amount.toNat else 0) +
          (if k = a.avsInputTokenVault then amount.toNat else 0)) + 0
      rw [overAssets_add, havs, hpoolAvs, if_neg hmint]

end Call

section Token

variable {p : Privileges Pubkey} {program : Pubkey} {ix : TokenIx Pubkey} {l l' : Ledger Pubkey}
  {pool : Pubkey}

/-- An associated account in the hands of a wallet that does not sign gains what a transaction
credits to it and loses nothing. -/
theorem exec_balance_associated {ks : Set Pubkey} (hf : l.FeeFree) (hl : InOwnHands ks l)
    {wallet : Pubkey} (hs : p.signer wallet = false) (h : exec p program ix l = .ok l')
    (hw : wallet ∈ ks) (t m : Pubkey) :
    l'.balance (getAssociatedTokenAddress wallet t m) =
      l.balance (getAssociatedTokenAddress wallet t m) +
        ix.credited (getAssociatedTokenAddress wallet t m) := by
  cases ha : l.accounts (getAssociatedTokenAddress wallet t m) with
  | some a => exact exec_balance_of_held hf hs h ha (hl _ _ _ a hw ha)
  | none =>
      have hprocess := ((exec_eq_ok_iff ..).1 h).2
      have hb := process_balance hf hprocess (getAssociatedTokenAddress wallet t m)
      rw [debited_eq_zero_of_none hprocess ha] at hb
      exact hb

/-- A token-program transaction adds to the assets what it credits to them. -/
theorem exec_assets (hf : l.FeeFree) (hl : LedgerSound l)
    (hs : p.signer pool = false) (h : exec p program ix l = .ok l')
    (hpool : pool.isPool = true) (avsMints : Finset Pubkey) (tokenProgram inputMint : Pubkey) :
    overAssets avsMints tokenProgram pool inputMint l'.balance =
      overAssets avsMints tokenProgram pool inputMint l.balance +
        overAssets avsMints tokenProgram pool inputMint ix.credited := by
  have hbal := fun t m => exec_balance_associated hf hl.held hs h hpool t m
  rw [← overAssets_add]
  simp only [overAssets, hbal]

/-- It changes the supply of a mint whose authority does not sign by burning only. -/
theorem exec_supply_of_authority {authority : Pubkey} (hs : p.signer authority = false)
    (h : exec p program ix l = .ok l') {mint : Pubkey} {x : Mint Pubkey}
    (hx : l.mints mint = some x)
    (hauth : x.mintAuthority = some authority) :
    l'.supply mint + ix.burned mint = l.supply mint := by
  have hsupply := process_supply ((exec_eq_ok_iff ..).1 h).2 mint
  rw [minted_eq_zero hs h hx hauth] at hsupply
  exact hsupply

end Token

/-! ## Whole runs -/

section Run

variable (avsMints : Finset Pubkey) (tokenProgram pool inputMint outputMint : Pubkey)

/-- What a transaction of users credits to the assets of the pool from outside. -/
def donated : Action → Nat
  | .token _ _ ix => overAssets avsMints tokenProgram pool inputMint ix.credited
  | .call _ _ _ => 0
  | .create _ _ _ _ _ => 0

/-- The output tokens that a transaction of users burns without asking the pool for anything. -/
def burnedOutside : Action → Nat
  | .token _ _ ix => ix.burned outputMint
  | .call _ _ _ => 0
  | .create _ _ _ _ _ => 0

/-- The state has the pool, sound and with mints that are not AVS mints, and no transfer fees. -/
structure Backable (findBump : Pubkey → UInt8) (s : State) : Prop where
  sound : Sound findBump s
  feeFree : s.ledger.FeeFree
  record : ∃ r, s.pools pool = some r ∧ r.inputTokenMint = inputMint ∧
    r.outputTokenMint = outputMint
  pool : PoolSound s.ledger tokenProgram pool inputMint outputMint

variable {avsMints tokenProgram pool inputMint outputMint} {avss : Set Pubkey}
  {findBump : Pubkey → UInt8} {a : Action} {s s' : State}

theorem attempt_feeFree (hf : s.ledger.FeeFree) (hu : a.Uses FundsOnly)
    (h : a.attempt findBump s = .ok s') : s'.ledger.FeeFree := by
  intro m y hy
  cases a with
  | call programs p c =>
      obtain ⟨start, hmoved, hstart⟩ := execute_fundsMoved h hu
      have hmints : start.ledger.mints = s.ledger.mints := by
        rcases hstart with hstart | ⟨payer, k, mint, authority, tokenProgram, v, hinit⟩
        · rw [hstart]
        · exact initIfNeeded_mints hinit
      cases hx : start.ledger.mints m with
      | none =>
          rw [hmoved.none_mint m hx] at hy
          cases hy
      | some x =>
          obtain ⟨n, hn⟩ := hmoved.some_mint m x hx
          obtain rfl := Option.some.inj (hy.symm.trans hn)
          exact hf m x (hmints ▸ hx)
  | token p program ix =>
      obtain ⟨-, -, l, hl, rfl⟩ := attempt_token_iff.1 h
      exact exec_feeFree hf hl m y hy
  | create p key wallet tokenProgram mint =>
      obtain ⟨-, -, x, -, -, -, -, rfl⟩ := attempt_create_iff.1 h
      exact hf m y hy

theorem Action.Uses.fundsOnly (hu : a.Uses (HonestPrograms avss avsMints)) : a.Uses FundsOnly :=
  hu.mono fun _ hh => hh.fundsOnly

theorem attempt_backable (hp : a.FromOutside) (hu : a.Uses (HonestPrograms avss avsMints))
    (hs : Backable tokenProgram pool inputMint outputMint findBump s)
    (h : a.attempt findBump s = .ok s') :
    Backable tokenProgram pool inputMint outputMint findBump s' where
  sound := attempt_sound hp hu.fundsOnly h hs.sound
  feeFree := attempt_feeFree hs.feeFree hu.fundsOnly h
  record := by
    obtain ⟨r, hr, hi, ho⟩ := hs.record
    obtain ⟨r', hr', -, hi', ho'⟩ := attempt_recordKept h pool r hr
    exact ⟨r', hr', hi'.trans hi, ho'.trans ho⟩
  pool := by
    obtain ⟨r, hr, -, -⟩ := hs.record
    exact attempt_poolSound (hs.sound.home.isPool hr) hp hu.fundsOnly h hs.sound.ledger hs.pool

/-- One transaction: the assets and the supply move apart by what it donates and burns. -/
theorem attempt_backing (hp : a.FromOutside) (hu : a.Uses (HonestPrograms avss avsMints))
    (hin : inputMint ∉ avsMints) (hout : outputMint ∉ avsMints)
    (hs : Backable tokenProgram pool inputMint outputMint findBump s)
    (h : a.attempt findBump s = .ok s') :
    assets avsMints tokenProgram pool inputMint s' + s.ledger.supply outputMint =
      assets avsMints tokenProgram pool inputMint s + s'.ledger.supply outputMint +
        (donated avsMints tokenProgram pool inputMint a + burnedOutside outputMint a) := by
  obtain ⟨r, hr, rfl, rfl⟩ := hs.record
  have hisPool := hs.sound.home.isPool hr
  cases a with
  | call programs p c =>
      have hsum : overAssets avsMints tokenProgram pool r.inputTokenMint s'.ledger.balance +
          overAssets avsMints tokenProgram pool r.inputTokenMint c.debited =
          overAssets avsMints tokenProgram pool r.inputTokenMint s.ledger.balance +
            overAssets avsMints tokenProgram pool r.inputTokenMint c.credited := by
        rw [← overAssets_add, ← overAssets_add]
        simp only [overAssets, execute_balance h hu (feeFree_call hs.feeFree _)]
      have hsupply := execute_supply h hu r.outputTokenMint
      have hcall := call_balanced h hu hp hs.sound hr hs.pool hin hout
      simp only [assets, donated, burnedOutside]
      omega
  | token p program ix =>
      -- nobody signs for the pool here, so its accounts only gain and its mint only loses
      obtain ⟨-, -, l, hl, rfl⟩ := attempt_token_iff.1 h
      obtain ⟨im, om, -, -, hom, -, hauth, -, -⟩ := hs.pool.mints
      have hsig : p.signer pool = false := not_signer_of_isPool hp hisPool
      have hassets := exec_assets hs.feeFree hs.sound.ledger hsig hl hisPool avsMints tokenProgram
        r.inputTokenMint
      have hsupply := exec_supply_of_authority hsig hl hom hauth
      simp only [assets, donated, burnedOutside]
      omega
  | create p key wallet t m =>
      obtain ⟨-, -, x, -, hnone, -, -, rfl⟩ := attempt_create_iff.1 h
      have hbal : ∀ k, (s.ledger.setAccount key (some (.fresh t m wallet))).balance k =
          s.ledger.balance k := Ledger.balance_create hnone t m wallet
      simp only [assets, donated, burnedOutside, overAssets, hbal, Ledger.supply_setAccount]
      omega

/-- The state after an initialization has the pool, without any output tokens. -/
theorem initialized_backable {l : Ledger Pubkey} (hl : LedgerSound l) (hf : l.FeeFree)
    {pre : List Action} (hpre : ∀ x ∈ pre, x.FromOutside ∧ x.Uses FundsOnly)
    {programs : Programs} {p : Privileges Pubkey} {b : InitializeAccounts} {limit : UInt64}
    (hinit : Action.attempt findBump (.call programs p (.initializePool b limit))
      (run findBump (deployed l) pre) = .ok s) :
    Backable b.tokenProgram b.pool b.inputTokenMint b.outputTokenMint findBump s ∧
      s.ledger.supply b.outputTokenMint = 0 := by
  have hsound := run_sound hpre (sound_deployed findBump hl)
  have hfree : (run findBump (deployed l) pre).ledger.FeeFree :=
    Rollback.run_invariant (I := fun t : State => t.ledger.FeeFree) (s := deployed l)
      (fun x hx _ _ ht h => attempt_feeFree ht (hpre x hx).2 h) hf
  have hhome := attempt_recordsAtHome hsound.home hinit
  have horigin := @attempt_record_origin _ _ _ _ hinit
  obtain ⟨im, v, om, hacc, rfl⟩ := (initializePool_eq_ok_iff ..).1 hinit
  refine ⟨⟨⟨hhome, hsound.ledger, ?_⟩, hfree, ⟨_, if_pos rfl, rfl, rfl⟩, hacc.poolSound⟩, ?_⟩
  · intro k r' hr'
    rcases horigin hr' with ⟨r, hr, hi, ho⟩ | ⟨_, _, _, _, heq, rfl, hi, ho⟩
    · obtain ⟨tp, hr⟩ := hsound.pools k r hr
      exact ⟨tp, hi ▸ ho ▸ hr⟩
    · cases heq
      exact ⟨_, hi ▸ ho ▸ hacc.poolSound⟩
  · exact (Ledger.supply_of_some hacc.outputMint_some).trans hacc.outputMint_supply

end Run

/-- Full backing over whole runs. The program is deployed on a sound ledger without transfer fees,
any transactions happen with AVS programs that move funds only, a pool is initialized, and any
transactions happen with honest AVS programs, all of them with any signers from outside. Then the
vault and the AVS-token accounts of the pool hold together the supply of output tokens, what they
held when the pool was initialized, what was donated to them since, and what was burned outside the
program. -/
theorem full_backing {findBump : Pubkey → UInt8} {avss : Set Pubkey} {avsMints : Finset Pubkey}
    {l : Ledger Pubkey} (hl : LedgerSound l) (hf : l.FeeFree) {pre post : List Action}
    (hpre : ∀ x ∈ pre, x.FromOutside ∧ x.Uses FundsOnly)
    {programs : Programs} {p : Privileges Pubkey} {a : InitializeAccounts} {limit : UInt64}
    {s : State}
    (hinit : Action.attempt findBump (.call programs p (.initializePool a limit))
      (run findBump (deployed l) pre) = .ok s)
    (hin : a.inputTokenMint ∉ avsMints) (hout : a.outputTokenMint ∉ avsMints)
    (hpost : ∀ x ∈ post, x.FromOutside ∧ x.Uses (HonestPrograms avss avsMints)) :
    (run findBump s post).ledger.balance
        (getAssociatedTokenAddress a.pool a.tokenProgram a.inputTokenMint) +
      ∑ m ∈ avsMints, (run findBump s post).ledger.balance
        (getAssociatedTokenAddress a.pool a.tokenProgram m) =
      (run findBump s post).ledger.supply a.outputTokenMint +
        (assets avsMints a.tokenProgram a.pool a.inputTokenMint s +
          Rollback.total (Action.attempt findBump)
            (donated avsMints a.tokenProgram a.pool a.inputTokenMint) s post) +
        Rollback.total (Action.attempt findBump) (burnedOutside a.outputTokenMint) s post := by
  obtain ⟨hstart, hsupply⟩ := initialized_backable hl hf hpre hinit
  have hrun : assets avsMints a.tokenProgram a.pool a.inputTokenMint (run findBump s post) +
      s.ledger.supply a.outputTokenMint =
      assets avsMints a.tokenProgram a.pool a.inputTokenMint s +
        (run findBump s post).ledger.supply a.outputTokenMint +
        Rollback.total (Action.attempt findBump)
          (fun x => donated avsMints a.tokenProgram a.pool a.inputTokenMint x +
            burnedOutside a.outputTokenMint x) s post :=
    Rollback.run_balance
      (fun x hx _ _ ht h => attempt_backable (hpost x hx).1 (hpost x hx).2 ht h)
      (fun x hx _ _ ht h => attempt_backing (hpost x hx).1 (hpost x hx).2 hin hout ht h) hstart
  rw [Rollback.total_add, hsupply] at hrun
  show assets avsMints a.tokenProgram a.pool a.inputTokenMint (run findBump s post) = _
  omega

namespace Sample

/-- In the history of the sample five tokens are donated and three burned. -/
theorem history_backed :
    (run findBump (opened 1000) history).ledger.balance
        (getAssociatedTokenAddress pool tokenProgram inputMint) +
      ∑ m ∈ registry.mints, (run findBump (opened 1000) history).ledger.balance
        (getAssociatedTokenAddress pool tokenProgram m) =
      (run findBump (opened 1000) history).ledger.supply outputMint + 5 + 3 := by
  have hpre : ∀ x ∈ ([] : List Action), x.FromOutside ∧ x.Uses FundsOnly := by
    intro x hx
    cases hx
  have hstart : assets registry.mints tokenProgram pool inputMint (opened 1000) = 0 := by decide
  have hdonated : Rollback.total (Action.attempt findBump)
      (donated registry.mints tokenProgram pool inputMint) (opened 1000) history = 5 := by decide
  have hburned : Rollback.total (Action.attempt findBump) (burnedOutside outputMint)
      (opened 1000) history = 3 := by decide
  refine (full_backing ledger_sound ledger_feeFree hpre (initialization_eq 1000) (by decide)
    (by decide) history_honest).trans ?_
  show (run findBump (opened 1000) history).ledger.supply outputMint +
    (assets registry.mints tokenProgram pool inputMint (opened 1000) +
      Rollback.total (Action.attempt findBump)
        (donated registry.mints tokenProgram pool inputMint) (opened 1000) history) +
    Rollback.total (Action.attempt findBump) (burnedOutside outputMint) (opened 1000) history = _
  rw [hstart, hdonated, hburned, Nat.zero_add]

end Sample

end AdraLrt
