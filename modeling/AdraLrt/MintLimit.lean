import AdraLrt.Sample

/-!
# The mint limit

Only a deposit of the pool raises the supply of its output mint, and it succeeds only when the
supply after minting is within the limit in force (`attempt_supply`). The limit can be set below the
supply at any time, so the supply is not always within it. What holds over whole runs is that the
supply is within the largest limit that was ever in force, and that at or above the limit nothing
raises it (`mint_limit`).
-/

set_option autoImplicit false

namespace AdraLrt

open TokenLedger Checked

/-- The mint has the pool as its authority. -/
def Minter (pool mint : Pubkey) (l : Ledger Pubkey) : Prop :=
  ∃ y, l.mints mint = some y ∧ y.mintAuthority = some pool

/-- The pool stays the authority of the mint and nothing is minted. -/
def NothingMinted (pool mint : Pubkey) (l l' : Ledger Pubkey) : Prop :=
  Minter pool mint l → Minter pool mint l' ∧ l'.supply mint ≤ l.supply mint

section Ledger

variable {pool mint : Pubkey} {l l' : Ledger Pubkey}

theorem NothingMinted.refl : NothingMinted pool mint l l :=
  fun h => ⟨h, Nat.le_refl _⟩

theorem NothingMinted.trans {m : Ledger Pubkey} (h : NothingMinted pool mint l m)
    (h' : NothingMinted pool mint m l') : NothingMinted pool mint l l' := by
  intro hl
  obtain ⟨hm, hle⟩ := h hl
  obtain ⟨hl', hle'⟩ := h' hm
  exact ⟨hl', Nat.le_trans hle' hle⟩

theorem nothingMinted_of_mints (h : l'.mints mint = l.mints mint) :
    NothingMinted pool mint l l' := by
  rintro ⟨y, hy, hauth⟩
  exact ⟨⟨y, h.trans hy, hauth⟩, Nat.le_of_eq (Ledger.supply_congr h)⟩

theorem Minter.of_fundsMoved (h : Minter pool mint l) (hm : FundsMoved l l') :
    Minter pool mint l' := by
  obtain ⟨y, hy, hauth⟩ := h
  obtain ⟨n, hn⟩ := hm.some_mint mint y hy
  exact ⟨y.withSupply n, hn, hauth⟩

/-- Instructions that move funds without minting these tokens. -/
theorem nothingMinted_of_exec {p : Privileges Pubkey} {program : Pubkey} {ix : TokenIx Pubkey}
    (hix : ix.movesFunds = true) (hminted : ix.minted mint = 0) (h : exec p program ix l = .ok l') :
    NothingMinted pool mint l l' := by
  intro hl
  have hsupply := process_supply ((exec_eq_ok_iff ..).1 h).2 mint
  exact ⟨hl.of_fundsMoved (exec_fundsMoved hix h), by omega⟩

/-- An exchange mints tokens of the AVS only. -/
theorem nothingMinted_exchange {x : AvsAccounts} {p : Privileges Pubkey} {amount : Nat}
    {name : InstructionName} (hne : mint ≠ x.avsTokenMint)
    (h : execAll p (x.exchange amount name) l = .ok l') : NothingMinted pool mint l l' := by
  intro hl
  refine ⟨hl.of_fundsMoved (execAll_fundsMoved (exchange_movesFunds _ _ _) h), ?_⟩
  have hsupply := execAll_supply h mint
  have hminted : ((x.exchange amount name).map fun c => c.2.minted mint).sum = 0 := by
    cases name with
    | delegate => simp [AvsAccounts.exchange, TokenIx.minted, hne]
    | undelegate => simp [AvsAccounts.exchange, TokenIx.minted]
    | _ => rfl
  omega

/-- A call to an AVS program that touches pools by the exchange only. -/
theorem AvsRun.nothingMinted {programs : Programs} {x : AvsAccounts} {avsProgram : Pubkey}
    {name : InstructionName} {amount : UInt64} {s : State} {cs : List (Pubkey × TokenIx Pubkey)}
    (hpool : pool.isPool = true) (hh : ExchangesOnly programs)
    (h : AvsRun programs x avsProgram name amount s l cs) (hne : mint ≠ x.avsTokenMint) :
    NothingMinted pool mint s.ledger l := by
  intro hs
  obtain ⟨y, hy, hauth⟩ := hs
  obtain ⟨-, l', hex, -, hmints⟩ := hh x avsProgram name amount s l cs h
  -- the exchange may go on from its end, but mints in the hands of a pool are as it left them
  have hmint := hmints mint y hy ⟨pool, hauth, hpool⟩
  obtain ⟨⟨y', hy', hauth'⟩, hle⟩ := nothingMinted_exchange hne hex ⟨y, hy, hauth⟩
  exact ⟨⟨y', hmint.trans hy', hauth'⟩, (Ledger.supply_congr hmint).symm ▸ hle⟩

end Ledger

/-- A mint with two authorities has the same ones. -/
theorem Minter.ne_of_authority {pool mint mint' authority : Pubkey} {l : Ledger Pubkey}
    (h : Minter pool mint l) {y : Mint Pubkey} (hy : l.mints mint' = some y)
    (hauth : y.mintAuthority = some authority) (hne : authority ≠ pool) : mint ≠ mint' := by
  rintro rfl
  obtain ⟨z, hz, hzauth⟩ := h
  obtain rfl := Option.some.inj (hy.symm.trans hz)
  rw [hauth] at hzauth
  exact hne (Option.some.inj hzauth)

/-- The limit in force; a pool without a record has none. -/
def limitOf (pool : Pubkey) (s : State) : Nat :=
  match s.pools pool with
  | some r => r.outputMintLimit.toNat
  | none => 0

theorem limitOf_of_some {pool : Pubkey} {s : State} {r : LRTPool} (h : s.pools pool = some r) :
    limitOf pool s = r.outputMintLimit.toNat := by
  simp [limitOf, h]

section Step

variable {findBump : Pubkey → UInt8} {rt : Runtime} {p : Privileges Pubkey} {c : Call}
  {a : Action} {s s' : State} {pool mint : Pubkey}

/-- A deposit mints what was asked for, within the limit. -/
theorem deposit_supply {b : DepositAccounts} {amount : UInt64}
    (h : rt.execute p (.deposit b amount) s = .ok s') :
    s'.pools = s.pools ∧
      s'.ledger.supply b.outputTokenMint = s.ledger.supply b.outputTokenMint + amount.toNat ∧
      s'.ledger.supply b.outputTokenMint ≤ limitOf b.pool s ∧
      ∀ r, s.pools b.pool = some r → b.outputTokenMint = r.outputTokenMint := by
  obtain ⟨d, rfl⟩ := (execute_deposit_iff ..).1 h
  have h₀ := Ledger.supply_congr (congrFun (initIfNeeded_mints d.init_eq) b.outputTokenMint)
  have h₁ := process_supply ((exec_eq_ok_iff ..).1 d.stake_eq).2 b.outputTokenMint
  have h₂ := process_supply ((exec_eq_ok_iff ..).1 d.mint_eq).2 b.outputTokenMint
  simp only [TokenIx.burned, TokenIx.minted, if_true] at h₁ h₂
  refine ⟨rfl, ?_, ?_, ?_⟩
  · show d.minted.supply b.outputTokenMint = _
    omega
  · show d.minted.supply b.outputTokenMint ≤ _
    rw [Ledger.supply_of_some d.mintAfter_some, limitOf_of_some d.accepted.pool_some]
    exact d.limit
  · intro r hr
    obtain rfl := Option.some.inj (hr.symm.trans d.accepted.pool_some)
    exact d.accepted.outputMint_eq

/-- A delegation mints AVS tokens at most. -/
theorem DelegateRun.nothingMinted {b : DelegateAccounts} {name : InstructionName} {amount : UInt64}
    (d : DelegateRun rt p b name amount s) (hh : ExchangesOnly rt.programs)
    (hpool : pool.isPool = true) (hs : Minter pool mint s.ledger) :
    NothingMinted pool mint s.ledger d.exchanged := by
  obtain ⟨havs, -⟩ := hh _ _ _ _ _ _ _ d.avs
  have hne := hs.ne_of_authority d.accepted.avsMint_some d.accepted.avsMint_authority
    (Pubkey.ne_of_not_isPool hpool havs)
  exact (nothingMinted_of_mints (congrFun (initIfNeeded_mints d.init_eq) mint)).trans
    (d.avs.nothingMinted hpool hh hne)

/-- An instruction mints nothing of the pool's output unless it is a deposit of the pool. -/
theorem call_nothingMinted (h : rt.execute p c s = .ok s') (hh : ExchangesOnly rt.programs)
    (hpool : pool.isPool = true) (hs : Minter pool mint s.ledger) :
    NothingMinted pool mint s.ledger s'.ledger ∨
      Minter pool mint s'.ledger ∧
        ∃ b amount, c = .deposit b amount ∧ b.pool = pool ∧ b.outputTokenMint = mint := by
  cases c with
  | initializePool b limit =>
      obtain ⟨-, -, -, -, rfl⟩ := (initializePool_eq_ok_iff ..).1 h
      exact Or.inl NothingMinted.refl
  | transferDelegateAuthority b =>
      obtain ⟨-, -, -, -, -, -, -, rfl⟩ := (transferDelegateAuthority_eq_ok_iff ..).1 h
      exact Or.inl NothingMinted.refl
  | updateMintLimit b limit =>
      obtain ⟨-, -, -, -, -, -, -, rfl⟩ := (updateMintLimit_eq_ok_iff ..).1 h
      exact Or.inl NothingMinted.refl
  | deposit b amount =>
      obtain ⟨d, rfl⟩ := (execute_deposit_iff ..).1 h
      have hstart : NothingMinted pool mint s.ledger d.staked :=
        (nothingMinted_of_mints (congrFun (initIfNeeded_mints d.init_eq) mint)).trans
          (nothingMinted_of_exec rfl rfl d.stake_eq)
      by_cases hmint : mint = b.outputTokenMint
      · -- the mint has one authority, so the deposit is one of this pool
        have hmine : b.pool = pool := by
          by_contra hne
          exact hs.ne_of_authority d.accepted.outputMint_some d.accepted.outputMint_authority hne
            hmint
        refine Or.inr ⟨?_, b, amount, rfl, hmine, hmint.symm⟩
        exact (hstart hs).1.of_fundsMoved (exec_fundsMoved rfl d.mint_eq)
      · refine Or.inl (hstart.trans (nothingMinted_of_exec rfl ?_ d.mint_eq))
        simp [TokenIx.minted, hmint]
  | withdraw b amount =>
      obtain ⟨d, rfl⟩ := (execute_withdraw_iff ..).1 h
      exact Or.inl ((nothingMinted_of_exec rfl rfl d.burn_eq).trans
        (nothingMinted_of_exec rfl rfl d.pay_eq))
  | withdrawDelegatedStake b amount =>
      obtain ⟨d, rfl⟩ := (execute_withdrawDelegatedStake_iff ..).1 h
      obtain ⟨havs, -⟩ := hh _ _ _ _ _ _ _ d.avs
      -- the AVS mint is under the authority of the AVS, so it is not the output mint
      have hne := hs.ne_of_authority d.accepted.avsMint_some d.accepted.avsMint_authority
        (Pubkey.ne_of_not_isPool hpool havs)
      have hstart : NothingMinted pool mint s.ledger d.burned :=
        (nothingMinted_of_mints (congrFun (initIfNeeded_mints d.init_eq) mint)).trans
          (nothingMinted_of_exec rfl rfl d.burn_eq)
      exact Or.inl ((hstart.trans (d.avs.nothingMinted hpool hh hne)).trans
        (nothingMinted_of_exec rfl rfl d.pay_eq))
  | delegate b amount =>
      obtain ⟨d, -, rfl⟩ := (execute_delegate_iff ..).1 h
      exact Or.inl (d.nothingMinted hh hpool hs)
  | undelegate b amount =>
      obtain ⟨d, -, rfl⟩ := (execute_undelegate_iff ..).1 h
      exact Or.inl (d.nothingMinted hh hpool hs)

/-- What the limit needs of a state: the pool has a record for the mint and is its authority. -/
structure Limited (pool mint : Pubkey) (s : State) : Prop where
  isPool : pool.isPool = true
  record : ∃ r, s.pools pool = some r ∧ r.outputTokenMint = mint
  minter : Minter pool mint s.ledger

/-- One transaction keeps the pool in charge of its mint, and raises the supply only by a deposit
that stays within the limit. -/
theorem attempt_supply (hp : a.privileges.signer pool = false) (hu : a.Uses ExchangesOnly)
    (hs : Limited pool mint s)
    (h : a.attempt findBump s = .ok s') :
    Limited pool mint s' ∧ (s'.ledger.supply mint ≤ s.ledger.supply mint ∨
      s'.ledger.supply mint ≤ limitOf pool s ∧ s'.pools = s.pools) := by
  obtain ⟨r, hr, ho⟩ := hs.record
  obtain ⟨r', hr', -, -, ho'⟩ := attempt_recordKept h pool r hr
  have hrecord : ∃ r, s'.pools pool = some r ∧ r.outputTokenMint = mint := ⟨r', hr', ho'.trans ho⟩
  -- everything but a deposit of the pool mints nothing
  have hquiet : NothingMinted pool mint s.ledger s'.ledger → Limited pool mint s' ∧
      (s'.ledger.supply mint ≤ s.ledger.supply mint ∨
        s'.ledger.supply mint ≤ limitOf pool s ∧ s'.pools = s.pools) := by
    intro hn
    obtain ⟨hminter, hle⟩ := hn hs.minter
    exact ⟨⟨hs.isPool, hrecord, hminter⟩, Or.inl hle⟩
  cases a with
  | call programs p c =>
      rcases call_nothingMinted h hu hs.isPool hs.minter with
        hn | ⟨hminter, b, amount, rfl, rfl, rfl⟩
      · exact hquiet hn
      · obtain ⟨hpools, -, hle, -⟩ := deposit_supply h
        exact ⟨⟨hs.isPool, hrecord, hminter⟩, Or.inr ⟨hle, hpools⟩⟩
  | token p program ix =>
      obtain ⟨-, -, l, hl, rfl⟩ := attempt_token_iff.1 h
      refine hquiet ?_
      rintro ⟨y, hy, hauth⟩
      obtain ⟨y', hy', hauth', hle, -⟩ := exec_mintKept hp hl mint y hy hauth
      refine ⟨⟨y', hy', hauth'⟩, ?_⟩
      show l.supply mint ≤ s.ledger.supply mint
      rw [Ledger.supply_of_some hy, Ledger.supply_of_some hy']
      exact hle
  | create p key wallet tokenProgram m =>
      obtain ⟨-, -, x, -, -, -, -, rfl⟩ := attempt_create_iff.1 h
      exact hquiet (nothingMinted_of_mints rfl)

end Step

/-! ## Whole runs -/

/-- The transaction is an `update_mint_limit` of the pool. -/
def Action.SetsLimit (pool : Pubkey) : Action → Prop
  | .call _ _ (.updateMintLimit b _) => b.pool = pool
  | _ => False

section Run

variable {findBump : Pubkey → UInt8} {s s' : State} {pool mint : Pubkey}

/-- Nothing else changes the limit of a pool. -/
theorem attempt_limitOf {a : Action} (hno : ¬ a.SetsLimit pool) (hs : Limited pool mint s)
    (h : a.attempt findBump s = .ok s') : limitOf pool s' = limitOf pool s := by
  obtain ⟨r₀, hr₀, -⟩ := hs.record
  rcases attempt_pools h with ⟨-, hpools⟩ | ⟨programs, p, c, rfl, hc⟩
  · simp only [limitOf, hpools]
  · cases hc with
    | kept c hset hpools => simp only [limitOf, hpools]
    | created b limit hpool hnone hs' =>
        have hne : b.pool ≠ pool := by
          rintro rfl
          rw [hnone] at hr₀
          cases hr₀
        simp only [limitOf, hs', s.setPool_pools_of_ne _ hne]
    | transferred b r hsig hr hauth hs' =>
        by_cases hpool : pool = b.pool
        · subst hpool
          rw [limitOf_of_some hr, limitOf_of_some (r := { r with
            delegateAuthority := b.newAuthority }) (by rw [hs']; exact if_pos rfl)]
        · simp only [limitOf, hs', s.setPool_pools_of_ne _ (Ne.symm hpool)]
    | limitSet b limit r hsig hr hauth hs' =>
        simp only [limitOf, hs', s.setPool_pools_of_ne _ hno]

/-- An accepted initialization puts the pool in charge of its mint, without any supply. -/
theorem initialized_limited {programs : Programs} {p : Privileges Pubkey} {a : InitializeAccounts}
    {limit : UInt64}
    (h : Action.attempt findBump (.call programs p (.initializePool a limit)) s = .ok s') :
    Limited a.pool a.outputTokenMint s' ∧ s'.ledger.supply a.outputTokenMint = 0 := by
  obtain ⟨im, v, om, hacc, rfl⟩ := (initializePool_eq_ok_iff ..).1 h
  refine ⟨⟨isPool_of_eq hacc.pool_eq, ⟨_, if_pos rfl, rfl⟩,
    om, hacc.outputMint_some, hacc.outputMint_authority⟩, ?_⟩
  exact (Ledger.supply_of_some hacc.outputMint_some).trans hacc.outputMint_supply

theorem run_limited {as : List Action}
    (has : ∀ x ∈ as, x.privileges.signer pool = false ∧ x.Uses ExchangesOnly)
    (hs : Limited pool mint s) : Limited pool mint (run findBump s as) :=
  Rollback.run_invariant
    (fun x hx _ _ ht h => (attempt_supply (has x hx).1 (has x hx).2 ht h).1) hs

/-- Without an update of the limit the supply stays within the limit or below where it was. -/
theorem run_supply_le {as : List Action}
    (has : ∀ x ∈ as, x.privileges.signer pool = false ∧ x.Uses ExchangesOnly ∧ ¬ x.SetsLimit pool)
    (hs : Limited pool mint s) (hlimit : limitOf pool s ≤ s.ledger.supply mint) :
    (run findBump s as).ledger.supply mint ≤ s.ledger.supply mint := by
  have hinv : Limited pool mint (run findBump s as) ∧
      limitOf pool (run findBump s as) = limitOf pool s ∧
      (run findBump s as).ledger.supply mint ≤ s.ledger.supply mint := by
    refine Rollback.run_invariant (I := fun t : State => Limited pool mint t ∧
      limitOf pool t = limitOf pool s ∧ t.ledger.supply mint ≤ s.ledger.supply mint) ?_
      ⟨hs, rfl, Nat.le_refl _⟩
    rintro x hx t t' ⟨ht, hl, hle⟩ h
    obtain ⟨hp, hu, hno⟩ := has x hx
    obtain ⟨ht', hsupply⟩ := attempt_supply hp hu ht h
    refine ⟨ht', (attempt_limitOf hno ht h).trans hl, ?_⟩
    -- a deposit ends within the limit, which is not above the supply at the start
    rcases hsupply with hsupply | ⟨hsupply, -⟩
    · exact Nat.le_trans hsupply hle
    · exact Nat.le_trans hsupply (hl ▸ hlimit)
  exact hinv.2.2

/-- The supply stays within the largest limit that was in force, or below where it was. -/
theorem run_supply_le_peak (findBump : Pubkey → UInt8) {as : List Action}
    (has : ∀ x ∈ as, x.privileges.signer pool = false ∧ x.Uses ExchangesOnly)
    (hs : Limited pool mint s) :
    (run findBump s as).ledger.supply mint ≤ max (s.ledger.supply mint)
      (Rollback.peak (Action.attempt findBump) (limitOf pool) s as) := by
  refine Rollback.run_le_peak (X := fun t : State => t.ledger.supply mint) (L := limitOf pool)
    (fun x hx _ _ ht h => (attempt_supply (has x hx).1 (has x hx).2 ht h).1) ?_ hs
  intro x hx t t' ht h
  rcases (attempt_supply (has x hx).1 (has x hx).2 ht h).2 with hle | ⟨hle, hpools⟩
  · exact Or.inl hle
  · -- a deposit writes the record back as it was
    have hlimit : limitOf pool t' = limitOf pool t := by simp only [limitOf, hpools]
    exact Or.inr (hlimit ▸ hle)

end Run

/-- The mint limit over a whole run after an initialization, for any signers but the pool itself,
any limits, any amounts, and AVS programs that touch pools by the exchange only. Right after a
deposit of the pool the supply is within the limit; it is always within the largest limit that was
in force; at or above the limit no transaction raises it; over a stretch without `update_mint_limit`
that starts at or above the limit it never exceeds its value at the start; and a deposit that would
exceed the limit changes nothing. -/
theorem mint_limit {findBump : Pubkey → UInt8} {programs : Programs} {p : Privileges Pubkey}
    {a : InitializeAccounts} {limit : UInt64} {s₀ s : State}
    (hinit : Action.attempt findBump (.call programs p (.initializePool a limit)) s₀ = .ok s)
    {as : List Action}
    (has : ∀ x ∈ as, x.privileges.signer a.pool = false ∧ x.Uses ExchangesOnly) :
    (∀ programs' q b amount s', b.pool = a.pool →
      Action.attempt findBump (.call programs' q (.deposit b amount)) (run findBump s as) = .ok s' →
      s'.ledger.supply a.outputTokenMint ≤ limitOf a.pool s') ∧
    (run findBump s as).ledger.supply a.outputTokenMint ≤
      Rollback.peak (Action.attempt findBump) (limitOf a.pool) s as ∧
    (limitOf a.pool (run findBump s as) ≤ (run findBump s as).ledger.supply a.outputTokenMint →
      (∀ x s', x.privileges.signer a.pool = false → x.Uses ExchangesOnly →
        Action.attempt findBump x (run findBump s as) = .ok s' →
        s'.ledger.supply a.outputTokenMint ≤ (run findBump s as).ledger.supply a.outputTokenMint) ∧
      ∀ bs, (∀ x ∈ bs, x.privileges.signer a.pool = false ∧ x.Uses ExchangesOnly ∧
          ¬ x.SetsLimit a.pool) →
        (run findBump (run findBump s as) bs).ledger.supply a.outputTokenMint ≤
          (run findBump s as).ledger.supply a.outputTokenMint) ∧
    ∀ programs' q b amount, b.pool = a.pool →
      limitOf a.pool (run findBump s as) <
        (run findBump s as).ledger.supply a.outputTokenMint + amount.toNat →
      Rollback.apply (Action.attempt findBump) (.call programs' q (.deposit b amount))
        (run findBump s as) = run findBump s as := by
  obtain ⟨hstart, hzero⟩ := initialized_limited hinit
  have hend : Limited a.pool a.outputTokenMint (run findBump s as) := run_limited has hstart
  obtain ⟨r, hr, ho⟩ := hend.record
  -- whatever the accounts of a deposit of the pool, it mints the output token of the record
  have hdeposit : ∀ programs' q b amount s', b.pool = a.pool →
      Action.attempt findBump (.call programs' q (.deposit b amount)) (run findBump s as) = .ok s' →
      s'.pools = (run findBump s as).pools ∧ s'.ledger.supply a.outputTokenMint =
        (run findBump s as).ledger.supply a.outputTokenMint + amount.toNat ∧
      s'.ledger.supply a.outputTokenMint ≤ limitOf a.pool (run findBump s as) := by
    intro programs' q b amount s' hb h
    obtain ⟨hpools, hsupply, hle, hmint⟩ := deposit_supply h
    have hout : b.outputTokenMint = a.outputTokenMint := (hmint r (hb ▸ hr)).trans ho
    rw [hout] at hsupply hle
    exact ⟨hpools, hsupply, hb ▸ hle⟩
  refine ⟨?_, ?_, ?_, ?_⟩
  · intro programs' q b amount s' hb h
    obtain ⟨hpools, -, hle⟩ := hdeposit programs' q b amount s' hb h
    rw [limitOf, hpools]
    exact hle
  · have hpeak := run_supply_le_peak findBump has hstart
    rw [hzero] at hpeak
    exact hpeak.trans (Nat.max_le.2 ⟨Nat.zero_le _, Nat.le_refl _⟩)
  · intro hlimit
    refine ⟨fun x s' hp hu h => ?_, fun bs hbs => run_supply_le hbs hend hlimit⟩
    rcases (attempt_supply hp hu hend h).2 with hle | ⟨hle, -⟩
    · exact hle
    · exact Nat.le_trans hle hlimit
  · intro programs' q b amount hb hlt
    cases h : Action.attempt findBump (.call programs' q (.deposit b amount))
        (run findBump s as) with
    | error e => exact Rollback.apply_of_error h
    | ok s' =>
        obtain ⟨-, hsupply, hle⟩ := hdeposit programs' q b amount s' hb h
        omega

namespace Sample

theorem history_exchangesOnly :
    ∀ a ∈ history, a.privileges.signer pool = false ∧ a.Uses ExchangesOnly := by
  intro a ha
  obtain ⟨hp, -, hu⟩ := history_uses a ha
  refine ⟨hp.notSignedBy_pools pool rfl, hu.mono ?_⟩
  rintro programs rfl
  exact registry.honest.exchangesOnly

/-- Under a limit of eighty tokens, the first deposit of the history reaches the limit. -/
theorem history_limited :
    (run findBump (opened 80) history).ledger.supply outputMint ≤
      Rollback.peak (Action.attempt findBump) (limitOf pool) (opened 80) history :=
  (mint_limit (initialization_eq 80) history_exchangesOnly).2.1

/-- At the limit, a withdrawal makes room for another deposit, which raises the supply. -/
theorem supply_rises_at_limit :
    limitOf pool (run findBump (opened 80) [deposit 80]) ≤
        (run findBump (opened 80) [deposit 80]).ledger.supply outputMint ∧
      (run findBump (opened 80) [deposit 80, withdrawal 50]).ledger.supply outputMint <
        (run findBump (opened 80) [deposit 80, withdrawal 50, deposit 20]).ledger.supply
          outputMint := by
  decide

end Sample

end AdraLrt
