import AdraLrt.Exit
import AdraLrt.Refinement

/-!
# Deposits into initialized pools

`Initialize` asks for a vault at the address derived under the pool's own token program, and so do
`Withdraw`, `WithdrawStake` and `Delegate`. `Deposit` names no token program for
`pool_input_token_vault` and therefore wants the address derived under the legacy one. A pool under
the other token program is accepted and can never be deposited into; under the legacy one a deposit
credits the vault with what it mints, as long as the token program itself lets the tokens move
(`deposit_credited_iff`).
-/

set_option autoImplicit false

namespace AdraLrt

open TokenLedger Checked

/-- The token program is the legacy one, and it lets `user` move `amount` out of its account and the
deposit into the other two: none of the three accounts is frozen, those of the user are still its
own, and no smaller allowance to the user itself stands in the way. -/
structure Depositable (tokenProgram pool user : Pubkey) (r : LRTPool) (amount : UInt64)
    (s : State) : Prop where
  legacy : tokenProgram = .program .token
  input : ∀ x, s.ledger.accounts (getAssociatedTokenAddress user tokenProgram r.inputTokenMint) =
    some x → x.owner = user ∧ x.frozen = false ∧ x.MayMove user amount.toNat
  vault : ∀ x, s.ledger.accounts (getAssociatedTokenAddress pool tokenProgram r.inputTokenMint) =
    some x → x.frozen = false
  output : ∀ x, s.ledger.accounts (getAssociatedTokenAddress user tokenProgram r.outputTokenMint) =
    some x → x.owner = user ∧ x.frozen = false

section Deposit

variable {rt : Runtime} {p : Privileges Pubkey} {amount : UInt64} {s s' : State}
  {tokenProgram pool user : Pubkey} {r : LRTPool} {ui : TokenAccount Pubkey}

/-- An associated account that still belongs to its wallet, or that can be created, is ready for
use. -/
theorem exists_initIfNeeded {findBump : Pubkey → UInt8} {payer wallet mint : Pubkey}
    {x : Mint Pubkey} (hhome : RecordsAtHome findBump s) (hl : LedgerSound s.ledger)
    (hpayer : p.writable payer = true) (hx : s.ledger.mints mint = some x)
    (hxp : x.program = tokenProgram)
    (hw : p.writable (getAssociatedTokenAddress wallet tokenProgram mint) = true)
    (hown : ∀ y, s.ledger.accounts (getAssociatedTokenAddress wallet tokenProgram mint) = some y →
      y.owner = wallet ∧ y.frozen = false) :
    ∃ created start, initIfNeeded p payer (getAssociatedTokenAddress wallet tokenProgram mint) mint
      wallet tokenProgram s = .ok (created, start) ∧ created.account.frozen = false := by
  cases hy : s.ledger.accounts (getAssociatedTokenAddress wallet tokenProgram mint) with
  | some y =>
      obtain ⟨howner, hfrozen⟩ := hown y hy
      exact ⟨⟨_, y⟩, s, (initIfNeeded_eq_ok_iff ..).2 ⟨hw, rfl, rfl, Or.inl ⟨rfl, hy,
        hl.associated _ _ _ y hy, howner, hl.program _ _ _ y hy⟩⟩, hfrozen⟩
  | none =>
      exact ⟨⟨_, .fresh tokenProgram mint wallet⟩, _, (initIfNeeded_eq_ok_iff ..).2 ⟨hw, rfl, rfl,
        Or.inr ⟨hy, hl.no_mint wallet tokenProgram mint, ⟨x, hx, hxp⟩, rfl, rfl, hpayer,
          hhome.pools_associated wallet tokenProgram mint⟩⟩, rfl⟩

/-- A deposit that can be made succeeds. -/
theorem Depositable.exists_deposit {findBump : Pubkey → UInt8}
    (h : Depositable tokenProgram pool user r amount s) (hhome : RecordsAtHome findBump s)
    (hl : LedgerSound s.ledger)
    (hpool : PoolSound s.ledger tokenProgram pool r.inputTokenMint r.outputTokenMint)
    (hr : s.pools pool = some r)
    (hadm : ∀ m ∈ Call.demands (.deposit (.derived user tokenProgram pool r) amount),
      p.admits m = true)
    (huser : user ≠ pool)
    (hui : s.ledger.accounts (getAssociatedTokenAddress user tokenProgram r.inputTokenMint) =
      some ui)
    (hfunds : amount.toNat ≤ ui.amount)
    (hlimit : s.ledger.supply r.outputTokenMint + amount.toNat ≤ r.outputMintLimit.toNat) :
    ∃ s', rt.execute p (.deposit (.derived user tokenProgram pool r) amount) s = .ok s' := by
  obtain ⟨im, om, him, himp, hom, homp, homa, homf, hd⟩ := hpool.mints
  obtain ⟨v, hv⟩ := hpool.vault
  obtain ⟨howner, hthawed, hmay⟩ := h.input ui hui
  have hheld := hl.held _ _ _ v (hhome.isPool hr) hv
  have hsignerInput := writable_of_admits (hadm _ List.mem_cons_self) rfl
  have havailable : ∀ m ∈ (DepositAccounts.derived user tokenProgram pool r).metas,
      p.available m.pubkey = true :=
    fun m hm => available_of_admits (hadm m (List.mem_cons_of_mem _ hm))
  simp only [Call.demands, DepositAccounts.metas, DepositAccounts.derived, accountMeta,
    readonlyMeta, List.forall_mem_cons, List.not_mem_nil, false_imp_iff, implies_true, and_true]
    at hadm
  obtain ⟨-, hsigner, -, -, hpoolInput, houtputMint, hsignerOutput, hpoolMut, -⟩ := hadm
  obtain ⟨created, start, hinit, hcreated⟩ := exists_initIfNeeded hhome hl
    (writable_of_admits hsigner rfl) hom homp (writable_of_admits hsignerOutput rfl) h.output
  have hacc : Deposit.Accepted p (.derived user tokenProgram pool r) s im ui v om r := {
    signer := signer_of_admits hsigner rfl
    signer_mut := writable_of_admits hsigner rfl
    pool_mut := writable_of_admits hpoolMut rfl
    poolInput_mut := writable_of_admits hpoolInput rfl
    outputMint_mut := writable_of_admits houtputMint rfl
    tokenProgram := hpool.admitted
    associatedTokenProgram := rfl
    systemProgram := rfl
    pool_some := hr
    pool_eq := (hhome pool r hr).1
    inputMint_eq := rfl
    outputMint_eq := rfl
    inputMint_some := him
    inputMint_program := himp
    outputMint_some := hom
    outputMint_program := homp
    outputMint_authority := homa
    outputMint_freeze := homf
    outputMint_decimals := hd
    signerInput_some := hui
    signerInput_key := rfl
    signerInput_owner := howner
    signerInput_program := hl.program _ _ _ ui hui
    poolInput_some := hv
    -- the one place where the token program matters
    poolInput_key := by
      rw [← h.legacy]
      rfl
    poolInput_owner := hheld.owner_eq
    poolInput_program := (hl.program _ _ _ v hv).symm ▸ hpool.admitted }
  rw [Ledger.supply_of_some hom] at hlimit
  exact AdraLrt.exists_deposit hacc hinit hl havailable hsignerInput huser h.legacy hthawed
    (h.vault v hv) hcreated hmay hfunds hlimit

/-- A deposit that succeeds could be made. -/
theorem depositable_of_execute
    (h : rt.execute p (.deposit (.derived user tokenProgram pool r) amount) s = .ok s') :
    Depositable tokenProgram pool user r amount s := by
  obtain ⟨d, -⟩ := (execute_deposit_iff ..).1 h
  have hacc := d.accepted
  obtain ⟨src, dst, fee, hok⟩ :=
    (processTransfer_eq_ok_iff ..).1 ((exec_eq_ok_iff ..).1 d.stake_eq).2
  obtain ⟨uo, -, huo, -, huo_thawed, -⟩ :=
    (processMintTo_eq_ok_iff ..).1 ((exec_eq_ok_iff ..).1 d.mint_eq).2
  have hui := initIfNeeded_account_of_some d.init_eq hacc.signerInput_some
  have hvault := initIfNeeded_account_of_some d.init_eq hacc.poolInput_some
  obtain rfl := Option.some.inj (hui.symm.trans hok.source_some)
  obtain rfl := Option.some.inj (hvault.symm.trans hok.destination_some)
  refine ⟨?_, ?_, ?_, ?_⟩
  · -- the vault of the pool passed the check for the legacy address
    exact (getAssociatedTokenAddress_inj.1 hacc.poolInput_key).2.1
  · intro x hx
    obtain rfl := Option.some.inj (hx.symm.trans hacc.signerInput_some)
    exact ⟨hacc.signerInput_owner, hok.source_thawed, hok.mayMove⟩
  · intro x hx
    obtain rfl := Option.some.inj (hx.symm.trans hacc.poolInput_some)
    exact hok.destination_thawed
  · -- an output account that was there was not created, and the minting found it thawed
    intro x hx
    have hstart := initIfNeeded_account_of_some d.init_eq hx
    have hcreated := initIfNeeded_account d.init_eq
    obtain rfl := Option.some.inj (hstart.symm.trans hcreated)
    obtain ⟨y, hy, hterms⟩ := (exec_fundsMoved rfl d.stake_eq).some_account _ _ hstart
    obtain rfl := Option.some.inj (hy.symm.trans huo)
    refine ⟨?_, hterms.frozen.symm.trans huo_thawed⟩
    rcases ((initIfNeeded_eq_ok_iff ..).1 d.init_eq).2.2.2 with ⟨-, -, -, howner, -⟩ | ⟨hnone, -⟩
    · exact howner
    · cases hx.symm.trans hnone

/-- Under the legacy token program a deposit credits the vault with what it mints. -/
theorem deposit_credits (hl : LedgerSound s.ledger) (huser : user ≠ pool)
    (hlegacy : tokenProgram = .program .token)
    (h : rt.execute p (.deposit (.derived user tokenProgram pool r) amount) s = .ok s') :
    s'.ledger.balance (getAssociatedTokenAddress pool tokenProgram r.inputTokenMint) =
        s.ledger.balance (getAssociatedTokenAddress pool tokenProgram r.inputTokenMint) +
          amount.toNat ∧
      s'.ledger.supply r.outputTokenMint = s.ledger.supply r.outputTokenMint + amount.toNat := by
  obtain ⟨-, hsupply, -, -⟩ := deposit_supply h
  obtain ⟨d, rfl⟩ := (execute_deposit_iff ..).1 h
  refine ⟨?_, hsupply⟩
  have hsource : getAssociatedTokenAddress pool tokenProgram r.inputTokenMint ≠
      getAssociatedTokenAddress user tokenProgram r.inputTokenMint :=
    associated_ne_of_wallet rfl rfl huser.symm
  have hdestination : getAssociatedTokenAddress pool tokenProgram r.inputTokenMint ≠
      getAssociatedTokenAddress user tokenProgram r.outputTokenMint :=
    associated_ne_of_wallet rfl rfl huser.symm
  have hfree : NamesNoFee (some (r.inputTokenMint, d.inputMint.decimals)) d.start.ledger := by
    rintro - ⟨⟩ x hx
    have hx' : s.ledger.mints r.inputTokenMint = some x :=
      (congrFun (initIfNeeded_mints d.init_eq) _).symm.trans hx
    obtain rfl := Option.some.inj (hx'.symm.trans d.accepted.inputMint_some)
    exact hl.legacy _ _ hx' (d.accepted.inputMint_program.trans hlegacy)
  have b₀ := initIfNeeded_balance d.init_eq
    (getAssociatedTokenAddress pool tokenProgram r.inputTokenMint)
  have b₁ := processTransfer_balance hfree ((exec_eq_ok_iff ..).1 d.stake_eq).2
    (getAssociatedTokenAddress pool tokenProgram r.inputTokenMint)
  have b₂ := process_balance_of_free (by trivial) ((exec_eq_ok_iff ..).1 d.mint_eq).2
    (getAssociatedTokenAddress pool tokenProgram r.inputTokenMint)
  simp only [DepositAccounts.derived, TokenIx.debited, TokenIx.credited, hsource, hdestination,
    if_true, if_false] at b₁ b₂
  show d.minted.balance _ = _
  omega

end Deposit

/-- A successful initialization leaves a sound state with the new pool in it. -/
theorem initialize_sound {findBump : Pubkey → UInt8} {programs : Programs} {q : Privileges Pubkey}
    {b : InitializeAccounts} {limit : UInt64} {s s₁ : State}
    (h : Action.attempt findBump (.call programs q (.initializePool b limit)) s = .ok s₁)
    (hs : Sound findBump s) :
    Sound findBump s₁ ∧
      PoolSound s₁.ledger b.tokenProgram b.pool b.inputTokenMint b.outputTokenMint ∧
      ∃ r, s₁.pools b.pool = some r ∧ r.inputTokenMint = b.inputTokenMint ∧
        r.outputTokenMint = b.outputTokenMint := by
  obtain ⟨im, v, om, hacc, hs₁⟩ := (initializePool_eq_ok_iff ..).1 h
  have hhome := attempt_recordsAtHome hs.home h
  subst hs₁
  refine ⟨⟨hhome, hs.ledger, ?_⟩, hacc.poolSound, _, if_pos rfl, rfl, rfl⟩
  intro k r hr
  rcases State.setPool_cases hr with ⟨rfl, rfl⟩ | ⟨-, hold⟩
  · exact ⟨b.tokenProgram, hacc.poolSound⟩
  · exact hs.pools k r hold

/-- When a deposit is credited. In every state reached after a successful initialization of a pool
under either token program, whoever signed, with AVS programs that move funds only: a deposit of
anybody but the pool itself who has the input tokens, within the limit, on the accounts associated
under the pool's token program and with all the privileges that its calls need, succeeds and raises
the vault by the number of tokens minted if and only if it is `Depositable`. -/
theorem deposit_credited_iff {findBump : Pubkey → UInt8} {l : Ledger Pubkey}
    {before after : List Action} {programs : Programs} {q : Privileges Pubkey}
    {b : InitializeAccounts} {limit : UInt64} {s₁ : State} {rt : Runtime} {p : Privileges Pubkey}
    {user : Pubkey} {r : LRTPool} {ui : TokenAccount Pubkey} {amount : UInt64} (hl : LedgerSound l)
    (hbefore : ∀ x ∈ before, x.FromOutside ∧ x.Uses FundsOnly)
    (hinit : Action.attempt findBump (.call programs q (.initializePool b limit))
      (run findBump (deployed l) before) = .ok s₁)
    (hafter : ∀ x ∈ after, x.FromOutside ∧ x.Uses FundsOnly)
    (hr : (run findBump s₁ after).pools b.pool = some r) (huser : user ≠ b.pool)
    (hadm : ∀ m ∈ Call.demands (.deposit (.derived user b.tokenProgram b.pool r) amount),
      p.admits m = true)
    (hui : (run findBump s₁ after).ledger.accounts
      (getAssociatedTokenAddress user b.tokenProgram r.inputTokenMint) = some ui)
    (hfunds : amount.toNat ≤ ui.amount)
    (hlimit : (run findBump s₁ after).ledger.supply r.outputTokenMint + amount.toNat ≤
      r.outputMintLimit.toNat) :
    (∃ s' n, rt.execute p (.deposit (.derived user b.tokenProgram b.pool r) amount)
        (run findBump s₁ after) = .ok s' ∧
      s'.ledger.balance (getAssociatedTokenAddress b.pool b.tokenProgram r.inputTokenMint) =
        (run findBump s₁ after).ledger.balance
          (getAssociatedTokenAddress b.pool b.tokenProgram r.inputTokenMint) + n ∧
      s'.ledger.supply r.outputTokenMint =
        (run findBump s₁ after).ledger.supply r.outputTokenMint + n) ↔
    Depositable b.tokenProgram b.pool user r amount (run findBump s₁ after) := by
  obtain ⟨hs₁, hpool₁, r₁, hr₁, hin₁, hout₁⟩ :=
    initialize_sound hinit (run_sound hbefore (sound_deployed findBump hl))
  have hs := run_sound hafter hs₁
  have hpool := run_poolSound (hs₁.home.isPool hr₁) hafter hs₁ hpool₁
  -- the record keeps the mints of the initialization
  obtain ⟨r', hr', -, hin, hout⟩ := run_recordKept findBump s₁ after b.pool r₁ hr₁
  obtain rfl : r = r' := Option.some.inj (hr.symm.trans hr')
  rw [← hin₁, ← hout₁, ← hin, ← hout] at hpool
  constructor
  · rintro ⟨s', n, h, -⟩
    exact depositable_of_execute h
  · intro h
    obtain ⟨s', hs'⟩ : ∃ s', rt.execute p (.deposit (.derived user b.tokenProgram b.pool r) amount)
        (run findBump s₁ after) = .ok s' :=
      h.exists_deposit hs.home hs.ledger hpool hr hadm huser hui hfunds hlimit
    obtain ⟨hvault, hsupply⟩ := deposit_credits hs.ledger huser h.legacy hs'
    exact ⟨s', amount.toNat, hs', hvault, hsupply⟩

namespace Sample

/-- Right after the initialization a deposit of ten tokens is credited. -/
theorem first_deposit_credited :
    ∃ s' n, Runtime.execute ⟨findBump, registry.programs⟩ (signedBy user)
        (.deposit (.derived user tokenProgram pool (record 1000)) 10) (opened 1000) = .ok s' ∧
      s'.ledger.balance (getAssociatedTokenAddress pool tokenProgram inputMint) =
        (opened 1000).ledger.balance (getAssociatedTokenAddress pool tokenProgram inputMint) + n ∧
      s'.ledger.supply outputMint = (opened 1000).ledger.supply outputMint + n := by
  have hnone : ∀ x ∈ ([] : List Action), x.FromOutside ∧ x.Uses FundsOnly := by simp
  have hmay : ∀ x, (opened 1000).ledger.accounts
      (getAssociatedTokenAddress user tokenProgram inputMint) = some x →
      x = (account user inputMint 100).2 :=
    fun x hx => (Option.some.inj hx).symm
  have hdepositable : Depositable tokenProgram pool user (record 1000) 10 (opened 1000) := {
    legacy := rfl
    input := by
      intro x hx
      obtain rfl := hmay x hx
      decide
    vault := fun x hx => ledger_thawed _ x hx
    output := fun x hx => by cases hx }
  exact (deposit_credited_iff ledger_sound hnone (initialization_eq 1000) hnone rfl (by decide)
    (by decide) rfl (by decide) (by decide)).2 hdepositable

/-- The other token program. -/
def newer : Pubkey := .program .token2022

/-- A ledger under it, with no transfer fee on any token. -/
def newerLedger : Ledger Pubkey :=
  .ofLists
    [(inputMint, { mintOf authority 100 with program := newer }),
      (outputMint, { mintOf pool 0 with program := newer })]
    [(getAssociatedTokenAddress user newer inputMint,
        { TokenAccount.fresh newer inputMint user with amount := 100 }),
      (getAssociatedTokenAddress pool newer inputMint, .fresh newer inputMint pool)]

/-- The accounts of the initialization of a pool there. -/
def newerOpening : InitializeAccounts :=
  .derived newer pool authority authority inputMint outputMint

/-- The pool is accepted, and the user has tokens and the limit room for them, but the vault that
the initialization required is refused. -/
theorem newer_deposit_fails :
    LedgerSound newerLedger ∧
      ∃ s, Action.attempt findBump (.call registry.programs (signedBy authority)
          (.initializePool newerOpening 1000)) (deployed newerLedger) = .ok s ∧
        s.pools pool = some (record 1000) ∧
        s.ledger.balance (getAssociatedTokenAddress user newer inputMint) = 100 ∧
        s.ledger.supply outputMint + 10 ≤ (record 1000).outputMintLimit.toNat ∧
        Runtime.execute ⟨findBump, registry.programs⟩ (signedBy user)
          (.deposit (.derived user newer pool (record 1000)) 10) s =
            .error (.anchor .constraintAssociated) :=
  ⟨ledgerSound_ofLists (by decide) (by decide) (by decide),
    _, rfl, rfl, by decide, by decide, rfl⟩

end Sample

end AdraLrt
