import AdraLrt.Sample
import AdraLrt.TokenLedger.Spend

/-!
# Calls to an arbitrary AVS program

The forced exit and the two delegation instructions hand the pool's signature to whatever program
the transaction names, and check nothing after the call. This module says what is left to the
program's good will. For fixed accounts, signer, amount and state, the question is what can happen
under some behaviour of the program (`programs`), given that the instruction can succeed at all.

* The minting power of the pool is safe exactly when the output mint is not among the seven accounts
  handed over writable (`withdrawDelegatedStake_mintingPower`).
* Delegation keeps the pool's value exactly when both pool accounts are empty or frozen out of reach
  (`delegation_value`).
-/

set_option autoImplicit false

namespace AdraLrt

open TokenLedger Checked

/-- Under some behaviour of outside programs the instruction succeeds. -/
def CanSucceed (findBump : Pubkey → UInt8) (p : Privileges Pubkey) (c : Call) (s : State) : Prop :=
  ∃ (programs : Programs) (s' : State), Runtime.execute ⟨findBump, programs⟩ p c s = .ok s'

section Replay

variable {rt : Runtime} {p : Privileges Pubkey} {s : State} {amount : UInt64}

/-- The same forced exit with other instructions of the AVS program. -/
theorem WithdrawStakeRun.replay {a : WithdrawStakeAccounts}
    (d : WithdrawStakeRun id rt p a amount s) {cs : List (Pubkey × TokenIx Pubkey)}
    {l₂ l₃ : Ledger Pubkey} {v : TokenAccount Pubkey}
    (htp : ∀ c ∈ cs, isTokenInterface c.1 = true ∧ c.1 ∈ a.avsAccounts.keys)
    (hcs : execAll (a.avsAccounts.privileges a.avsProgram) cs d.burned = .ok l₂)
    (hv : l₂.accounts a.poolInputTokenVault = some v) (hvp : isTokenInterface v.program = true)
    (hguard : amount.toNat ≤ v.amount)
    (hpay : exec (sign p a.pool) a.tokenProgram
      (.transfer a.poolInputTokenVault a.signerInputTokenVault a.pool amount.toNat
        (some (a.inputTokenMint, d.inputMint.decimals))) l₂ = .ok l₃) :
    Runtime.execute ⟨rt.findBump, fun _ _ _ => some cs⟩ p (.withdrawDelegatedStake a amount) s =
      .ok { s with ledger := l₃ } := by
  refine (execute_withdrawDelegatedStake_iff ..).2 ⟨{ d with
    calls := cs, undelegated := l₂, vault := v, paid := l₃, avs := ?_, vault_some := hv,
    vault_program := hvp, guard := hguard, pay_eq := hpay }, rfl⟩
  exact ⟨d.avs.external, rfl, htp, hcs⟩

/-- The same delegation with other instructions of the AVS program. -/
theorem DelegateRun.replay {a : DelegateAccounts} {name : InstructionName}
    (d : DelegateRun rt p a name amount s) {cs : List (Pubkey × TokenIx Pubkey)}
    {l : Ledger Pubkey} (htp : ∀ c ∈ cs, isTokenInterface c.1 = true ∧ c.1 ∈ a.avsAccounts.keys)
    (hcs : execAll (a.avsAccounts.privileges a.avsProgram) cs d.start.ledger = .ok l) :
    ∃ d' : DelegateRun ⟨rt.findBump, fun _ _ _ => some cs⟩ p a name amount s,
      d'.poolInput = d.poolInput ∧ d'.created = d.created ∧ d'.exchanged = l :=
  ⟨{ d with calls := cs, exchanged := l, avs := ⟨d.avs.external, rfl, htp, hcs⟩ }, rfl, rfl, rfl⟩

end Replay

/-! ## Minting power -/

/-- The pool is still the authority of the output mint, whose supply is what was burned less. -/
def MintingPowerKept (a : WithdrawStakeAccounts) (amount : UInt64) (s s' : State) : Prop :=
  ∃ m m', s.ledger.mints a.outputTokenMint = some m ∧
    s'.ledger.mints a.outputTokenMint = some m' ∧ m'.mintAuthority = some a.pool ∧
    m'.freezeAuthority = some a.pool ∧ m'.supply + amount.toNat = m.supply

section Minting

variable {rt : Runtime} {p : Privileges Pubkey} {s : State} {a : WithdrawStakeAccounts}
  {amount : UInt64}

/-- The output mint after the burn. -/
theorem WithdrawStakeRun.burned_outputMint (d : WithdrawStakeRun id rt p a amount s) :
    amount.toNat ≤ d.outputMint.supply ∧ d.burned.mints a.outputTokenMint =
      some (d.outputMint.withSupply (d.outputMint.supply - amount.toNat)) := by
  obtain ⟨-, hburn⟩ := (exec_eq_ok_iff ..).1 d.burn_eq
  obtain ⟨src, m, -, -, hm, -, -, -, -, -, hle, hl⟩ := (processBurn_eq_ok_iff ..).1 hburn
  rw [initIfNeeded_mints d.init_eq, d.accepted.outputMint_some] at hm
  obtain rfl := Option.some.inj hm
  exact ⟨hle, by simp [hl]⟩

/-- The payment changes no mint. -/
theorem WithdrawStakeRun.paid_mints (d : WithdrawStakeRun id rt p a amount s) :
    d.paid.mints = d.undelegated.mints :=
  processTransfer_mints ((exec_eq_ok_iff ..).1 d.pay_eq).2

theorem mintingPowerKept_of_not_writable (d : WithdrawStakeRun id rt p a amount s)
    (h : a.outputTokenMint ∉ a.avsAccounts.writable) :
    MintingPowerKept a amount s { s with ledger := d.paid } := by
  obtain ⟨hle, hburned⟩ := d.burned_outputMint
  have hw : (a.avsAccounts.privileges a.avsProgram).writable a.outputTokenMint = false := by
    rw [Bool.eq_false_iff, ne_eq, AvsAccounts.privileges_writable]
    exact h
  have hframe := (reach_frame (reach_of_execAll d.avs.execAll_eq) hw).2
  refine ⟨d.outputMint, d.outputMint.withSupply (d.outputMint.supply - amount.toNat),
    d.accepted.outputMint_some, ?_, d.accepted.outputMint_authority,
    d.accepted.outputMint_freeze, Nat.sub_add_cancel hle⟩
  show d.paid.mints a.outputTokenMint = _
  rw [d.paid_mints, hframe]
  exact hburned

/-- A program that was handed the output mint can give the minting authority away. -/
theorem exists_mintingPower_lost (d : WithdrawStakeRun id rt p a amount s)
    (h : a.outputTokenMint ∈ a.avsAccounts.writable)
    (hkept : MintingPowerKept a amount s { s with ledger := d.paid }) :
    ∃ (programs : Programs) (s' : State),
      Runtime.execute ⟨rt.findBump, programs⟩ p (.withdrawDelegatedStake a amount) s = .ok s' ∧
        ¬ MintingPowerKept a amount s s' := by
  obtain ⟨m, m', hm, hm', hauth, -, -⟩ := hkept
  obtain ⟨-, hburned⟩ := d.burned_outputMint
  have hm₂ : d.undelegated.mints a.outputTokenMint = some m' := d.paid_mints ▸ hm'
  obtain ⟨m₂, hm₂', hprogram, -, -⟩ :=
    reach_mint_fixed (reach_of_execAll d.avs.execAll_eq) hburned
  obtain rfl := Option.some.inj (hm₂.symm.trans hm₂')
  have hprogram' : m'.program = a.tokenProgram := hprogram.trans d.accepted.outputMint_program
  -- the same run, with one more instruction of the callee; neither guard nor payment reads the
  -- authorities of a mint
  let l₂ := d.undelegated.setMint a.outputTokenMint { m' with mintAuthority := none }
  let l₃ := d.paid.setMint a.outputTokenMint { m' with mintAuthority := none }
  let giveAway : Pubkey × TokenIx Pubkey :=
    (a.tokenProgram, .setAuthority a.outputTokenMint a.pool (.mintTokens none))
  have hrun : execAll (a.avsAccounts.privileges a.avsProgram) (d.calls ++ [giveAway]) d.burned =
      .ok l₂ := by
    refine (execAll_append_eq_ok_iff ..).2 ⟨d.undelegated, d.avs.execAll_eq, ?_⟩
    refine (execAll_cons_eq_ok_iff ..).2 ⟨l₂, (exec_eq_ok_iff ..).2 ⟨?_, ?_⟩, rfl⟩
    · have hsig := a.avsAccounts.signer_pool a.avsProgram
      have havail := AvsAccounts.available_of_signer hsig
      have hpool : a.avsAccounts.pool = a.pool := rfl
      rw [hpool] at hsig havail
      simp [giveAway, TokenIx.metas, Privileges.admits, hsig, havail,
        AvsAccounts.available_of_mem_writable h]
    · exact (processSetAuthority_eq_ok_iff _ _ _ _ _ (.mintTokens none)).2
        ⟨m', hm₂, hprogram', hauth, rfl⟩
  have htp : ∀ c ∈ d.calls ++ [giveAway], isTokenInterface c.1 = true ∧
      c.1 ∈ a.avsAccounts.keys := by
    intro c hc
    rcases List.mem_append.1 hc with hc | hc
    · exact d.avs.tokenPrograms c hc
    · rw [List.mem_singleton.1 hc]
      exact ⟨d.accepted.tokenProgram, a.avsAccounts.tokenProgram_mem_keys⟩
  have hpay : exec (sign p a.pool) a.tokenProgram
      (.transfer a.poolInputTokenVault a.signerInputTokenVault a.pool amount.toNat
        (some (a.inputTokenMint, d.inputMint.decimals))) l₂ = .ok l₃ := by
    obtain ⟨hadm, hpay⟩ := (exec_eq_ok_iff ..).1 d.pay_eq
    refine (exec_eq_ok_iff ..).2 ⟨hadm, ?_⟩
    exact processTransfer_setMint hm₂ rfl hpay
  refine ⟨_, _, d.replay htp hrun d.vault_some d.vault_program d.guard hpay, ?_⟩
  rintro ⟨x, x', -, hx', hxauth, -, -⟩
  have hl₃ : l₃.mints a.outputTokenMint = some { m' with mintAuthority := none } := by
    simp [l₃]
  obtain rfl := Option.some.inj (hl₃.symm.trans hx')
  cases hxauth

/-- For a forced exit that can succeed: the pool keeps the minting power under every behaviour of
the AVS program exactly when the output mint is not handed to it writable. -/
theorem withdrawDelegatedStake_mintingPower {findBump : Pubkey → UInt8}
    (hcan : CanSucceed findBump p (.withdrawDelegatedStake a amount) s) :
    (∀ (programs : Programs) (s' : State),
      Runtime.execute ⟨findBump, programs⟩ p (.withdrawDelegatedStake a amount) s = .ok s' →
        MintingPowerKept a amount s s') ↔
      a.outputTokenMint ∉ a.avsAccounts.writable := by
  constructor
  · intro hall hmem
    obtain ⟨programs, s', h⟩ := hcan
    obtain ⟨d, rfl⟩ := (execute_withdrawDelegatedStake_iff ..).1 h
    obtain ⟨programs', s'', h', hlost⟩ := exists_mintingPower_lost d hmem (hall programs _ h)
    exact hlost (hall programs' s'' h')
  · intro hmem programs s' h
    obtain ⟨d, rfl⟩ := (execute_withdrawDelegatedStake_iff ..).1 h
    exact mintingPowerKept_of_not_writable d hmem

end Minting

namespace Sample

/-- With the programs of the registry the user can exit. -/
theorem exit_canSucceed :
    CanSucceed findBump (signedBy user) (.withdrawDelegatedStake exit 10) operating := by
  obtain ⟨s', h, -⟩ : ∃ s', Runtime.execute ⟨findBump, registry.programs⟩ (signedBy user)
      (.withdrawDelegatedStake exit 10) operating = .ok s' ∧ true = true :=
    exists_eq_ok (by decide)
  exact ⟨registry.programs, s', h⟩

/-- The call of an exit at the AVS has nothing to do with the output mint. -/
theorem mintingPower_kept : ∃ s',
    Runtime.execute ⟨findBump, registry.programs⟩ (signedBy user)
      (.withdrawDelegatedStake exit 10) operating = .ok s' ∧
        MintingPowerKept exit 10 operating s' := by
  obtain ⟨s', h, -⟩ : ∃ s', Runtime.execute ⟨findBump, registry.programs⟩ (signedBy user)
      (.withdrawDelegatedStake exit 10) operating = .ok s' ∧ true = true :=
    exists_eq_ok (by decide)
  have hkept := (withdrawDelegatedStake_mintingPower exit_canSucceed).2 (by decide)
  exact ⟨s', h, hkept registry.programs s' h⟩

/-- The same user passes the pool for the AVS and the output mint for its token. -/
def selfExit : WithdrawStakeAccounts :=
  .derived user tokenProgram pool (record 1000) pool outputMint avsProgram

/-- A program that gives the minting authority of the output mint to the user. -/
def usurper : Programs := fun _ _ _ =>
  some [(tokenProgram, .setAuthority outputMint pool (.mintTokens (some user)))]

/-- The checks accept these accounts, and the user, who is not the delegate authority, has the
minting authority afterwards. -/
theorem mintingPower_usurped : user ≠ (record 1000).delegateAuthority ∧ ∃ s',
    Runtime.execute ⟨findBump, usurper⟩ (signedBy user) (.withdrawDelegatedStake selfExit 0)
      operating = .ok s' ∧ ¬ MintingPowerKept selfExit 0 operating s' := by
  refine ⟨by decide, ?_⟩
  obtain ⟨s', h, htest⟩ : ∃ s', Runtime.execute ⟨findBump, usurper⟩ (signedBy user)
      (.withdrawDelegatedStake selfExit 0) operating = .ok s' ∧
      decide ((s'.ledger.mints outputMint).bind Mint.mintAuthority = some user) = true :=
    exists_eq_ok (by decide)
  refine ⟨s', h, ?_⟩
  rintro ⟨m, m', -, hm', hauth, -⟩
  rw [show s'.ledger.mints outputMint = some m' from hm'] at htest
  have huser : m'.mintAuthority = some user := by simpa using htest
  rw [hauth] at huser
  cases huser

end Sample

/-! ## Value in a delegation -/

/-- What delegating should guarantee: the vault falls by at most the amount, and the AVS tokens of
the pool rise by at least what the vault lost. -/
def DelegateKeepsValue (a : DelegateAccounts) (amount : UInt64) (s s' : State) : Prop :=
  s.ledger.balance a.poolInputTokenVault ≤
      s'.ledger.balance a.poolInputTokenVault + amount.toNat ∧
    s.ledger.balance a.poolAvsTokenVault + (s.ledger.balance a.poolInputTokenVault -
      s'.ledger.balance a.poolInputTokenVault) ≤ s'.ledger.balance a.poolAvsTokenVault

/-- The same for undelegating, with the two accounts exchanged. -/
def UndelegateKeepsValue (a : DelegateAccounts) (amount : UInt64) (s s' : State) : Prop :=
  s.ledger.balance a.poolAvsTokenVault ≤ s'.ledger.balance a.poolAvsTokenVault + amount.toNat ∧
    s.ledger.balance a.poolInputTokenVault + (s.ledger.balance a.poolAvsTokenVault -
      s'.ledger.balance a.poolAvsTokenVault) ≤ s'.ledger.balance a.poolInputTokenVault

/-- Nothing can be taken from the account at `k`: it is empty, or frozen with the freeze authority
out of reach. -/
def Locked (q : Privileges Pubkey) (l : Ledger Pubkey) (k : Pubkey) : Prop :=
  l.balance k = 0 ∨ FrozenBeyond q k (l.balance k) l

theorem reach_locked {q : Privileges Pubkey} {l l' : Ledger Pubkey} {k : Pubkey}
    (h : Reach q l l') (hk : Locked q l k) : l.balance k ≤ l'.balance k := by
  rcases hk with hzero | hfrozen
  · omega
  · obtain ⟨v, m, hv, -, hamount, -⟩ := reach_frozenBeyond h hfrozen
    rw [Ledger.balance_of_some hv, hamount]

/-- A frozen account that is not locked can be thawed by a signer. -/
theorem thawable_of_not_locked {q : Privileges Pubkey} {l : Ledger Pubkey} {k : Pubkey}
    {v : TokenAccount Pubkey} {m : Mint Pubkey} (hopen : ¬ Locked q l k)
    (hv : l.accounts k = some v) (hm : l.mints v.mint = some m) (hf : v.frozen = true) :
    ∃ h, m.freezeAuthority = some h ∧ q.signer h = true := by
  have hbal := Ledger.balance_of_some hv
  have hpos : 0 < v.amount := by
    refine Nat.pos_of_ne_zero fun h0 => hopen (Or.inl ?_)
    rw [hbal, h0]
  by_contra hno
  refine hopen (Or.inr ⟨v, m, hv, hf, hbal.symm, hbal ▸ hpos, hm, fun holder hh => ?_⟩)
  rw [Bool.eq_false_iff]
  exact fun hsig => hno ⟨holder, hh, hsig⟩

section Value

variable {rt : Runtime} {p : Privileges Pubkey} {s : State} {a : DelegateAccounts}
  {amount : UInt64} {name : InstructionName}

theorem DelegateRun.start_locked (d : DelegateRun rt p a name amount s) {q : Privileges Pubkey}
    {k : Pubkey} (hk : Locked q s.ledger k) : Locked q d.start.ledger k := by
  rw [Locked, initIfNeeded_balance d.init_eq]
  refine hk.imp_right ?_
  rintro ⟨v, m, hv, hf, hn, hpos, hm, hh⟩
  refine ⟨v, m, initIfNeeded_account_of_some d.init_eq hv, hf, hn, hpos, ?_, hh⟩
  rw [initIfNeeded_mints d.init_eq]
  exact hm

/-- The balances of the pool do not fall while they are locked. -/
theorem DelegateRun.balance_le (d : DelegateRun rt p a name amount s) {k : Pubkey}
    (hk : Locked (a.avsAccounts.privileges a.avsProgram) s.ledger k) :
    s.ledger.balance k ≤ d.exchanged.balance k := by
  rw [← initIfNeeded_balance d.init_eq]
  exact reach_locked (reach_of_execAll d.avs.execAll_eq) (d.start_locked hk)

/-- One token can be burned from an account of the pool that is not locked. -/
theorem DelegateRun.exists_burned (d : DelegateRun rt p a name amount s)
    (hw : WellFormed s.ledger) {k : Pubkey} {v : TokenAccount Pubkey}
    (hv : s.ledger.accounts k = some v) (howner : v.owner = a.pool)
    (hprogram : v.program = a.tokenProgram) (hk : k ∈ a.avsAccounts.writable)
    (hmint : v.mint ∈ a.avsAccounts.writable)
    (hopen : ¬ Locked (a.avsAccounts.privileges a.avsProgram) s.ledger k) :
    ∃ cs l, (∀ c ∈ cs, isTokenInterface c.1 = true ∧ c.1 ∈ a.avsAccounts.keys) ∧
      execAll (a.avsAccounts.privileges a.avsProgram) cs d.start.ledger = .ok l ∧
      l.balance k + 1 = s.ledger.balance k ∧ ∀ j, j ≠ k → l.balance j = s.ledger.balance j := by
  obtain ⟨m, hm, hmp⟩ := hw.mint_some k v hv
  have hbal := Ledger.balance_of_some hv
  have hpos : 0 < v.amount := by
    refine Nat.pos_of_ne_zero fun h0 => hopen (Or.inl ?_)
    rw [hbal, h0]
  have hthaw := thawable_of_not_locked hopen hv hm
  have hsupply : 1 ≤ m.supply := by
    have hle := hw.conserved.balance_le hv
    rw [Ledger.supply_of_some hm] at hle
    omega
  have hm' : d.start.ledger.mints v.mint = some m := initIfNeeded_mints d.init_eq ▸ hm
  have hsig : (a.avsAccounts.privileges a.avsProgram).signer v.owner = true := by
    rw [howner]
    exact a.avsAccounts.signer_pool a.avsProgram
  obtain ⟨cs, l, hcs, hl, hk', hother⟩ :=
    exists_burn (fun _ => AvsAccounts.available_of_signer)
      (initIfNeeded_account_of_some d.init_eq hv) hm' hmp (AvsAccounts.available_of_mem_writable hk)
      (AvsAccounts.available_of_mem_writable hmint) hsig hthaw hpos hsupply
  refine ⟨cs, l, ?_, hl, ?_, ?_⟩
  · intro c hc
    rw [hcs c hc, hprogram]
    exact ⟨d.accepted.tokenProgram, a.avsAccounts.tokenProgram_mem_keys⟩
  · rw [hk', initIfNeeded_balance d.init_eq]
  · intro j hj
    rw [hother j hj, initIfNeeded_balance d.init_eq]

/-- Some behaviour of the AVS program takes one token of the vault or one AVS token of the pool and
gives nothing for it, unless both are locked. -/
theorem DelegateRun.exists_taken (d : DelegateRun rt p a name amount s) (hw : WellFormed s.ledger)
    (hopen : ¬ (Locked (a.avsAccounts.privileges a.avsProgram) s.ledger a.poolInputTokenVault ∧
      Locked (a.avsAccounts.privileges a.avsProgram) s.ledger a.poolAvsTokenVault)) :
    ∃ cs l k, (∀ c ∈ cs, isTokenInterface c.1 = true ∧ c.1 ∈ a.avsAccounts.keys) ∧
      execAll (a.avsAccounts.privileges a.avsProgram) cs d.start.ledger = .ok l ∧
      (k = a.poolInputTokenVault ∨ k = a.poolAvsTokenVault) ∧
      l.balance k + 1 = s.ledger.balance k ∧ ∀ j, j ≠ k → l.balance j = s.ledger.balance j := by
  rcases not_and_or.1 hopen with hV | hP
  · have hmint : d.poolInput.mint = a.inputTokenMint := by
      refine hw.associated a.pool a.tokenProgram _ _ ?_
      rw [← d.accepted.poolInput_key]
      exact d.accepted.poolInput_some
    obtain ⟨cs, l, htp, hl, hk, hother⟩ := d.exists_burned hw d.accepted.poolInput_some
      d.accepted.poolInput_owner d.accepted.poolInput_program
      (by simp [AvsAccounts.writable, DelegateAccounts.avsAccounts])
      (by simp [hmint, AvsAccounts.writable, DelegateAccounts.avsAccounts]) hV
    exact ⟨cs, l, _, htp, hl, Or.inl rfl, hk, hother⟩
  · rcases ((initIfNeeded_eq_ok_iff ..).1 d.init_eq).2.2.2 with ⟨-, hv, hmint, ho, hp⟩ | ⟨hnone, -⟩
    · obtain ⟨cs, l, htp, hl, hk, hother⟩ := d.exists_burned hw hv ho hp
        (by simp [AvsAccounts.writable, DelegateAccounts.avsAccounts])
        (by simp [hmint, AvsAccounts.writable, DelegateAccounts.avsAccounts]) hP
      exact ⟨cs, l, _, htp, hl, Or.inr rfl, hk, hother⟩
    · refine (hP (Or.inl ?_)).elim
      rw [Ledger.balance, hnone]

/-- Taking one token from either of two accounts breaks the exchange between them. -/
theorem exchange_broken {f g : Pubkey → Nat} {x y k : Pubkey} (hk : k = x ∨ k = y)
    (htaken : g k + 1 = f k) (hother : ∀ j, j ≠ k → g j = f j) : ¬ f y + (f x - g x) ≤ g y := by
  intro hle
  rcases hk with rfl | rfl
  · -- the two accounts may be one
    by_cases hxy : y = k
    · rw [hxy] at hle
      omega
    · have hy := hother y hxy
      omega
  · omega

/-- Where neither balance falls, the exchange holds, whatever may have left for `n`. -/
theorem exchange_kept {f g : Pubkey → Nat} {x y : Pubkey} {n : Nat} (hx : f x ≤ g x)
    (hy : f y ≤ g y) : f x ≤ g x + n ∧ f y + (f x - g x) ≤ g y := by
  omega

/-- For a delegation or an undelegation that can succeed: the pool keeps its value under every
behaviour of the AVS program exactly when neither of its two accounts has anything to take. -/
theorem delegation_value {findBump : Pubkey → UInt8} (hw : WellFormed s.ledger) :
    (CanSucceed findBump p (.delegate a amount) s →
      ((∀ (programs : Programs) (s' : State),
        Runtime.execute ⟨findBump, programs⟩ p (.delegate a amount) s = .ok s' →
          DelegateKeepsValue a amount s s') ↔
        Locked (a.avsAccounts.privileges a.avsProgram) s.ledger a.poolInputTokenVault ∧
          Locked (a.avsAccounts.privileges a.avsProgram) s.ledger a.poolAvsTokenVault)) ∧
    (CanSucceed findBump p (.undelegate a amount) s →
      ((∀ (programs : Programs) (s' : State),
        Runtime.execute ⟨findBump, programs⟩ p (.undelegate a amount) s = .ok s' →
          UndelegateKeepsValue a amount s s') ↔
        Locked (a.avsAccounts.privileges a.avsProgram) s.ledger a.poolInputTokenVault ∧
          Locked (a.avsAccounts.privileges a.avsProgram) s.ledger a.poolAvsTokenVault)) := by
  refine ⟨fun hcan => ⟨fun hall => ?_, ?_⟩, fun hcan => ⟨fun hall => ?_, ?_⟩⟩
  · obtain ⟨programs, s', h⟩ := hcan
    obtain ⟨d, hle, rfl⟩ := (execute_delegate_iff ..).1 h
    by_contra hopen
    -- a program that takes one token without giving anything can be called just as well
    obtain ⟨cs, l, k, htp, hl, hk, htaken, hother⟩ := d.exists_taken hw hopen
    obtain ⟨d', hd', -, hexch⟩ := d.replay htp hl
    obtain ⟨-, hvalue⟩ := hall _ _ ((execute_delegate_iff ..).2 ⟨d', hd' ▸ hle, rfl⟩)
    rw [hexch] at hvalue
    exact exchange_broken hk htaken hother hvalue
  · rintro ⟨hV, hP⟩ programs s' h
    obtain ⟨d, -, rfl⟩ := (execute_delegate_iff ..).1 h
    exact exchange_kept (d.balance_le hV) (d.balance_le hP)
  · obtain ⟨programs, s', h⟩ := hcan
    obtain ⟨d, hle, rfl⟩ := (execute_undelegate_iff ..).1 h
    by_contra hopen
    obtain ⟨cs, l, k, htp, hl, hk, htaken, hother⟩ := d.exists_taken hw hopen
    obtain ⟨d', -, hd', hexch⟩ := d.replay htp hl
    obtain ⟨-, hvalue⟩ := hall _ _ ((execute_undelegate_iff ..).2 ⟨d', hd' ▸ hle, rfl⟩)
    rw [hexch] at hvalue
    exact exchange_broken hk.symm htaken hother hvalue
  · rintro ⟨hV, hP⟩ programs s' h
    obtain ⟨d, -, rfl⟩ := (execute_undelegate_iff ..).1 h
    exact exchange_kept (d.balance_le hP) (d.balance_le hV)

end Value

namespace Sample

/-- A program that takes ten tokens out of the vault of the pool and gives nothing for them. -/
def taker : Programs := fun _ _ _ =>
  some [(tokenProgram, .transfer (getAssociatedTokenAddress pool tokenProgram inputMint)
    (getAssociatedTokenAddress avs tokenProgram inputMint) pool 10 none)]

/-- The delegation succeeds nonetheless. -/
theorem delegation_loses : ∃ s',
    Runtime.execute ⟨findBump, taker⟩ (signedBy authority) (.delegate delegation 10) operating =
      .ok s' ∧ ¬ DelegateKeepsValue delegation 10 operating s' := by
  obtain ⟨s', h, htest⟩ : ∃ s', Runtime.execute ⟨findBump, taker⟩ (signedBy authority)
      (.delegate delegation 10) operating = .ok s' ∧
      decide (s'.ledger.balance delegation.poolInputTokenVault = 30 ∧
        s'.ledger.balance delegation.poolAvsTokenVault = 60) = true :=
    exists_eq_ok (by decide)
  refine ⟨s', h, ?_⟩
  rintro ⟨-, hle⟩
  have hvault : operating.ledger.balance delegation.poolInputTokenVault = 40 := by decide
  have havs : operating.ledger.balance delegation.poolAvsTokenVault = 60 := by decide
  obtain ⟨hvault', havs'⟩ := of_decide_eq_true htest
  omega

/-- Both balances of this pool are open to such a loss, in either direction. -/
theorem value_at_risk :
    (¬ ∀ (programs : Programs) (s' : State),
      Runtime.execute ⟨findBump, programs⟩ (signedBy authority) (.delegate delegation 10)
        operating = .ok s' → DelegateKeepsValue delegation 10 operating s') ∧
    ¬ ∀ (programs : Programs) (s' : State),
      Runtime.execute ⟨findBump, programs⟩ (signedBy authority) (.undelegate delegation 10)
        operating = .ok s' → UndelegateKeepsValue delegation 10 operating s' := by
  obtain ⟨s₁, h₁, -⟩ : ∃ s', Runtime.execute ⟨findBump, registry.programs⟩ (signedBy authority)
      (.delegate delegation 10) operating = .ok s' ∧ true = true := exists_eq_ok (by decide)
  obtain ⟨s₂, h₂, -⟩ : ∃ s', Runtime.execute ⟨findBump, registry.programs⟩ (signedBy authority)
      (.undelegate delegation 10) operating = .ok s' ∧ true = true := exists_eq_ok (by decide)
  have hopen : ¬ Locked (delegation.avsAccounts.privileges delegation.avsProgram) operating.ledger
      delegation.poolInputTokenVault := by
    rintro (hzero | ⟨v, m, hv, hfrozen, -⟩)
    · revert hzero
      decide
    · have hthawed : ∀ v ∈ operating.ledger.accounts delegation.poolInputTokenVault,
          v.frozen = false := by decide
      rw [hthawed v hv] at hfrozen
      cases hfrozen
  obtain ⟨hdelegate, hundelegate⟩ := delegation_value operating_sound.toWellFormed
  rw [hdelegate ⟨_, s₁, h₁⟩, hundelegate ⟨_, s₂, h₂⟩]
  exact ⟨fun h => hopen h.1, fun h => hopen h.1⟩

end Sample

end AdraLrt
