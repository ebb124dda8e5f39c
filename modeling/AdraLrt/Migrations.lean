import AdraLrt.Credit
import AdraLrt.Transaction

/-!
# The transactions of the migrations

`migrations/initialize.ts` creates the vault of a pool and then the pool. `scripts/initialize.ts` is
to create the output mint, hand it to the pool and create the pool, without the vault; as it stands
it leaves out the limit and sends nothing. `migrations/delegateSquads.ts` and
`migrations/undelegateSquads.ts` create the account for the AVS tokens before they delegate or
undelegate, which both instructions would do themselves.
-/

set_option autoImplicit false

namespace AdraLrt

open TokenLedger Checked

/-! ## Delegations -/

section Delegation

variable {findBump : Pubkey → UInt8} {rt : Runtime} {p : Privileges Pubkey} {s t s' : State}
  {a : DelegateAccounts} {name : InstructionName} {amount : UInt64}
  {remaining : List (AccountMeta Pubkey)}

/-- The transaction of `delegateSquads.ts` and `undelegateSquads.ts`, with the instruction as a
parameter. -/
def createThen (programs : Programs) (a : DelegateAccounts) (c : Call)
    (remaining : List (AccountMeta Pubkey)) : Tx :=
  [.createIdempotent a.signer a.poolAvsTokenVault a.pool a.tokenProgram a.avsTokenMint,
    .call programs c remaining]

/-- The checks look at two token accounts, at the mints and at the record. -/
theorem Delegate.Accepted.congr {avsMint im : Mint Pubkey} {avsInput vault : TokenAccount Pubkey}
    {r : LRTPool} (h : Delegate.Accepted p a s avsMint avsInput im vault r)
    (hpools : t.pools = s.pools) (hmints : t.ledger.mints = s.ledger.mints)
    (hvault : t.ledger.accounts a.poolInputTokenVault = some vault)
    (havs : t.ledger.accounts a.avsInputTokenVault = some avsInput) :
    Delegate.Accepted p a t avsMint avsInput im vault r :=
  { h with
    pool_some := hpools ▸ h.pool_some
    inputMint_some := hmints ▸ h.inputMint_some
    poolInput_some := hvault
    avsMint_some := hmints ▸ h.avsMint_some
    avsInput_some := havs }

/-- The state with the account for the AVS tokens. -/
def State.withPoolAvs (s : State) (a : DelegateAccounts) : State where
  ledger := s.ledger.setAccount a.poolAvsTokenVault
    (some (.fresh a.tokenProgram a.avsTokenMint a.pool))
  pools := s.pools

theorem State.withPoolAvs_account {k : Pubkey} (h : k ≠ a.poolAvsTokenVault) :
    (s.withPoolAvs a).ledger.accounts k = s.ledger.accounts k := by
  simp [State.withPoolAvs, h]

/-- An account that is there is not the one to be created. -/
theorem ne_of_none {l : Ledger Pubkey} {j k : Pubkey} {x : TokenAccount Pubkey}
    (hj : l.accounts j = some x) (hk : l.accounts k = none) : j ≠ k := by
  rintro rfl
  rw [hk] at hj
  cases hj

/-- What a delegation without the account does, it does with the account created first. -/
theorem DelegateRun.precreated (d : DelegateRun rt p a name amount s)
    (hnone : s.ledger.accounts a.poolAvsTokenVault = none) :
    ∃ e : DelegateRun rt p a name amount (s.withPoolAvs a),
      e.poolInput = d.poolInput ∧ e.created = d.created ∧ e.exchanged = d.exchanged := by
  obtain ⟨hw, hkey, hv, ⟨-, hsome, -⟩ | ⟨-, -, -, hfresh, hstart, -⟩⟩ :=
    (initIfNeeded_eq_ok_iff ..).1 d.init_eq
  · rw [hnone] at hsome
    cases hsome
  -- the state in which the handler continues is the one with the account created first
  rw [hfresh] at hstart
  have hstart' : s.withPoolAvs a = d.start := hstart.symm
  have hacc : Delegate.Accepted p a (s.withPoolAvs a) d.avsMint d.avsInput d.inputMint d.poolInput
      d.record := d.accepted.congr rfl rfl
    ((State.withPoolAvs_account (ne_of_none d.accepted.poolInput_some hnone)).trans
      d.accepted.poolInput_some)
    ((State.withPoolAvs_account (ne_of_none d.accepted.avsInput_some hnone)).trans
      d.accepted.avsInput_some)
  have hinit : initIfNeeded p a.signer a.poolAvsTokenVault a.avsTokenMint a.pool a.tokenProgram
      (s.withPoolAvs a) = .ok (d.created, s.withPoolAvs a) := by
    refine (initIfNeeded_eq_ok_iff ..).2 ⟨hw, hkey, hv, Or.inl ⟨rfl, ?_, ?_, ?_, ?_⟩⟩
    · rw [hfresh]
      exact if_pos rfl
    all_goals rw [hfresh]; rfl
  refine ⟨⟨d.avsMint, d.avsInput, d.inputMint, d.poolInput, d.record, d.created, _, d.calls,
    d.exchanged, hacc, hinit, d.admitted, ?_⟩, rfl, rfl, rfl⟩
  rw [hstart']
  exact d.avs

/-- What it does with the account created first, it does by itself if the vault is there. -/
theorem DelegateRun.of_precreated (d : DelegateRun rt p a name amount (s.withPoolAvs a))
    (hnone : s.ledger.accounts a.poolAvsTokenVault = none)
    (hfree : s.ledger.mints a.poolAvsTokenVault = none)
    (hrecord : s.pools a.poolAvsTokenVault = none)
    (hmint : ∃ m, s.ledger.mints a.avsTokenMint = some m ∧ m.program = a.tokenProgram)
    (hvault : ∃ v, s.ledger.accounts
      (getAssociatedTokenAddress a.pool a.tokenProgram a.inputTokenMint) = some v) :
    ∃ e : DelegateRun rt p a name amount s,
      e.poolInput = d.poolInput ∧ e.created = d.created ∧ e.exchanged = d.exchanged := by
  obtain ⟨hw, hkey, hv, hinit⟩ := (initIfNeeded_eq_ok_iff ..).1 d.init_eq
  have hpresent : (s.withPoolAvs a).ledger.accounts a.poolAvsTokenVault =
      some (.fresh a.tokenProgram a.avsTokenMint a.pool) := if_pos rfl
  obtain ⟨hstart, hfresh⟩ : d.start = s.withPoolAvs a ∧
      d.created.account = .fresh a.tokenProgram a.avsTokenMint a.pool := by
    rcases hinit with ⟨hstart, hsome, -⟩ | ⟨habsent, -⟩
    · rw [hpresent] at hsome
      exact ⟨hstart, (Option.some.inj hsome).symm⟩
    · rw [hpresent] at habsent
      cases habsent
  obtain ⟨v, hv_some⟩ := hvault
  have hvault_ne : a.poolInputTokenVault ≠ a.poolAvsTokenVault :=
    ne_of_none (d.accepted.poolInput_key ▸ hv_some) hnone
  have havs_ne : a.avsInputTokenVault ≠ a.poolAvsTokenVault := by
    intro heq
    rw [d.accepted.avsInput_key, hkey, getAssociatedTokenAddress_inj] at heq
    rw [d.accepted.poolInput_key, hkey, heq.2.2] at hvault_ne
    exact hvault_ne rfl
  have hacc : Delegate.Accepted p a s d.avsMint d.avsInput d.inputMint d.poolInput d.record :=
    d.accepted.congr rfl rfl
      ((State.withPoolAvs_account hvault_ne).symm.trans d.accepted.poolInput_some)
      ((State.withPoolAvs_account havs_ne).symm.trans d.accepted.avsInput_some)
  refine ⟨⟨d.avsMint, d.avsInput, d.inputMint, d.poolInput, d.record, d.created, d.start, d.calls,
    d.exchanged, hacc, ?_, d.admitted, d.avs⟩, rfl, rfl, rfl⟩
  refine (initIfNeeded_eq_ok_iff ..).2 ⟨hw, hkey, hv, Or.inr ⟨hnone, hfree, hmint, hfresh, ?_,
    d.accepted.signer_mut, hrecord⟩⟩
  rw [hstart, hfresh]
  rfl

theorem execute_precreated_iff {c : Call} (hc : c = .delegate a amount ∨ c = .undelegate a amount)
    (hnone : s.ledger.accounts a.poolAvsTokenVault = none)
    (hfree : s.ledger.mints a.poolAvsTokenVault = none)
    (hrecord : s.pools a.poolAvsTokenVault = none)
    (hmint : ∃ m, s.ledger.mints a.avsTokenMint = some m ∧ m.program = a.tokenProgram)
    (hvault : ∃ v, s.ledger.accounts
      (getAssociatedTokenAddress a.pool a.tokenProgram a.inputTokenMint) = some v) :
    rt.execute p c (s.withPoolAvs a) = .ok s' ↔ rt.execute p c s = .ok s' := by
  rcases hc with rfl | rfl
  · rw [execute_delegate_iff, execute_delegate_iff]
    constructor
    · rintro ⟨d, hle, rfl⟩
      obtain ⟨e, hpool, -, hex⟩ := d.of_precreated hnone hfree hrecord hmint hvault
      exact ⟨e, hpool ▸ hle, by rw [hex]; rfl⟩
    · rintro ⟨d, hle, rfl⟩
      obtain ⟨e, hpool, -, hex⟩ := d.precreated hnone
      exact ⟨e, hpool ▸ hle, by rw [hex]; rfl⟩
  · rw [execute_undelegate_iff, execute_undelegate_iff]
    constructor
    · rintro ⟨d, hle, rfl⟩
      obtain ⟨e, -, hcreated, hex⟩ := d.of_precreated hnone hfree hrecord hmint hvault
      exact ⟨e, hcreated ▸ hle, by rw [hex]; rfl⟩
    · rintro ⟨d, hle, rfl⟩
      obtain ⟨e, -, hcreated, hex⟩ := d.precreated hnone
      exact ⟨e, hcreated ▸ hle, by rw [hex]; rfl⟩

theorem exists_delegateRun {c : Call} (hc : c = .delegate a amount ∨ c = .undelegate a amount)
    (h : rt.execute p c s = .ok s') : ∃ name, Nonempty (DelegateRun rt p a name amount s) := by
  rcases hc with rfl | rfl
  · obtain ⟨d, -⟩ := (execute_delegate_iff ..).1 h
    exact ⟨_, ⟨d⟩⟩
  · obtain ⟨d, -⟩ := (execute_undelegate_iff ..).1 h
    exact ⟨_, ⟨d⟩⟩

/-- The vault of an accepted delegation is there. -/
theorem Delegate.Accepted.vault {avsMint im : Mint Pubkey} {avsInput vault : TokenAccount Pubkey}
    {r : LRTPool} (h : Delegate.Accepted p a t avsMint avsInput im vault r)
    (hs : Sound findBump s) (hpools : t.pools = s.pools)
    (hmints : t.ledger.mints = s.ledger.mints) :
    ∃ v, s.ledger.accounts (getAssociatedTokenAddress a.pool a.tokenProgram a.inputTokenMint) =
      some v := by
  obtain ⟨tokenProgram, hpool⟩ := hs.pools a.pool r (hpools ▸ h.pool_some)
  have him : s.ledger.mints r.inputTokenMint = some im := by
    rw [← h.inputMint_eq, ← hmints]
    exact h.inputMint_some
  rw [← h.inputMint_program, hpool.inputMint_program him, h.inputMint_eq]
  exact hpool.vault

/-- The account that the migrations create first would be created anyway: in every sound state the
transaction does what the instruction does by itself with the same privileges. -/
theorem createThen_attempt_iff {programs : Programs} {c : Call} (hs : Sound findBump s)
    (hc : c = .delegate a amount ∨ c = .undelegate a amount) :
    (createThen programs a c remaining).attempt findBump s = .ok s' ↔
      Runtime.execute ⟨findBump, programs⟩
        ((createThen programs a c remaining).privileges (.call programs c remaining)) c s =
          .ok s' := by
  rw [Tx.attempt, createThen, Rollback.bundle_cons_eq_ok_iff]
  simp only [Rollback.bundle_singleton, TxIx.attempt, createAssociatedTokenIdempotent_eq_ok_iff,
    Action.attempt]
  constructor
  · rintro ⟨t, ⟨hkey, ⟨-, -, -, -, -, rfl⟩ | ⟨-, hnone, hfree, hmint, ht⟩⟩, h⟩
    · exact h
    · obtain rfl : t = s.withPoolAvs a := ht
      obtain ⟨name, ⟨d⟩⟩ := exists_delegateRun hc h
      exact (execute_precreated_iff hc hnone hfree (hkey ▸ hs.home.pools_associated _ _ _) hmint
        (d.accepted.vault hs rfl rfl)).1 h
  · intro h
    obtain ⟨name, ⟨d⟩⟩ := exists_delegateRun hc h
    obtain ⟨hw, hkey, -, ⟨-, hsome, hmint, howner, hprogram⟩ | ⟨hnone, hfree, hmint, -⟩⟩ :=
      (initIfNeeded_eq_ok_iff ..).1 d.init_eq
    · exact ⟨s, ⟨hkey, Or.inl ⟨_, hsome, hprogram, howner, hmint, rfl⟩⟩, h⟩
    · refine ⟨s.withPoolAvs a, ⟨hkey, Or.inr ⟨hw, hnone, hfree, hmint, rfl⟩⟩, ?_⟩
      exact (execute_precreated_iff hc hnone hfree (hkey ▸ hs.home.pools_associated _ _ _) hmint
        (d.accepted.vault hs rfl rfl)).2 h

end Delegation

/-! ## New pools -/

/-- What has to hold of the accounts of a new pool, but for its vault. -/
structure InitializeAccounts.Openable (findBump : Pubkey → UInt8) (a : InitializeAccounts)
    (s : State) : Prop where
  tokenProgram : isTokenInterface a.tokenProgram = true
  associatedTokenProgram : a.associatedTokenProgram = .program .associatedToken
  systemProgram : a.systemProgram = .program .system
  pool_eq : a.pool = poolAddress a.outputTokenMint (findBump a.outputTokenMint)
  vault_key : a.poolInputTokenVault =
    getAssociatedTokenAddress a.pool a.tokenProgram a.inputTokenMint
  pool_none : s.pools a.pool = none
  pool_no_account : s.ledger.accounts a.pool = none
  pool_no_mint : s.ledger.mints a.pool = none
  mints : ∃ im om, s.ledger.mints a.inputTokenMint = some im ∧ im.program = a.tokenProgram ∧
    s.ledger.mints a.outputTokenMint = some om ∧ om.program = a.tokenProgram ∧
    om.mintAuthority = some a.pool ∧ om.freezeAuthority = some a.pool ∧
    om.decimals = im.decimals ∧ om.supply = 0

/-- The transaction of `migrations/initialize.ts`. -/
def createPool (programs : Programs) (a : InitializeAccounts) (limit : UInt64) : Tx :=
  [.createIdempotent a.signer a.poolInputTokenVault a.pool a.tokenProgram a.inputTokenMint,
    .call programs (.initializePool a limit) []]

section Opening

variable {findBump : Pubkey → UInt8} {programs : Programs} {tx : Tx} {a : InitializeAccounts}
  {limit : UInt64} {s s' : State}

/-- An initialization asks for the privileges that it declares. -/
theorem Tx.initialize_privileges
    (hi : TxIx.call programs (.initializePool a limit) [] ∈ tx) :
    (tx.privileges (.call programs (.initializePool a limit) [])).signer a.signer = true ∧
      (tx.privileges (.call programs (.initializePool a limit) [])).writable a.signer = true ∧
      (tx.privileges (.call programs (.initializePool a limit) [])).writable a.pool = true ∧
      (tx.privileges (.call programs (.initializePool a limit) [])).writable
        a.poolInputTokenVault = true := by
  have hadm : ∀ m ∈ a.metas,
      (tx.privileges (.call programs (.initializePool a limit) [])).admits m = true :=
    fun m hm => Tx.privileges_admits hi (List.mem_append_left [] hm)
  simp only [InitializeAccounts.metas, List.forall_mem_cons] at hadm
  obtain ⟨hsigner, -, -, hvault, -, hpool, -⟩ := hadm
  exact ⟨signer_of_admits hsigner rfl, writable_of_admits hsigner rfl, writable_of_admits hpool rfl,
    writable_of_admits hvault rfl⟩

/-- With a vault, an initialization succeeds exactly on accounts of a new pool. -/
theorem initializePool_iff (hi : TxIx.call programs (.initializePool a limit) [] ∈ tx)
    (hl : LedgerSound s.ledger) :
    Runtime.execute ⟨findBump, programs⟩
        (tx.privileges (.call programs (.initializePool a limit) [])) (.initializePool a limit) s =
          .ok s' ↔
      a.Openable findBump s ∧ (∃ v, s.ledger.accounts a.poolInputTokenVault = some v) ∧
        s' = s.setPool a.pool ⟨findBump a.outputTokenMint, a.inputTokenMint, a.outputTokenMint,
          a.delegateAuthority, limit⟩ := by
  obtain ⟨hsigner, hsigner_mut, hpool_mut, hvault_mut⟩ := Tx.initialize_privileges hi
  constructor
  · intro h
    obtain ⟨im, v, om, hacc, hs'⟩ := (initializePool_eq_ok_iff ..).1 h
    exact ⟨⟨hacc.tokenProgram, hacc.associatedTokenProgram, hacc.systemProgram, hacc.pool_eq,
      hacc.poolInput_key, hacc.pool_none, hacc.pool_no_account, hacc.pool_no_mint, im, om,
      hacc.inputMint_some, hacc.inputMint_program, hacc.outputMint_some, hacc.outputMint_program,
      hacc.outputMint_authority, hacc.outputMint_freeze, hacc.outputMint_decimals,
      hacc.outputMint_supply⟩, ⟨v, hacc.poolInput_some⟩, hs'⟩
  · rintro ⟨hopen, ⟨v, hv⟩, hs'⟩
    -- in a sound ledger an account at the address of the vault belongs to the pool
    obtain ⟨im, om, him, himp, hom, homp, homa, homf, homd, homs⟩ := hopen.mints
    have hpool := isPool_of_eq hopen.pool_eq
    have hv' := hopen.vault_key ▸ hv
    refine (initializePool_eq_ok_iff ..).2 ⟨im, v, om, ?_, hs'⟩
    exact {
      signer := hsigner
      signer_mut := hsigner_mut
      pool_mut := hpool_mut
      poolInput_mut := hvault_mut
      tokenProgram := hopen.tokenProgram
      associatedTokenProgram := hopen.associatedTokenProgram
      systemProgram := hopen.systemProgram
      pool_eq := hopen.pool_eq
      pool_none := hopen.pool_none
      pool_no_account := hopen.pool_no_account
      pool_no_mint := hopen.pool_no_mint
      inputMint_some := him
      inputMint_program := himp
      poolInput_some := hv
      poolInput_key := hopen.vault_key
      poolInput_owner := (hl.held _ _ _ v hpool hv').owner_eq
      poolInput_program := hl.program _ _ _ v hv'
      outputMint_some := hom
      outputMint_program := homp
      outputMint_authority := homa
      outputMint_freeze := homf
      outputMint_decimals := homd
      outputMint_supply := homs }

/-- The state with the vault of the pool. -/
def State.withVault (s : State) (a : InitializeAccounts) : State where
  ledger := if (s.ledger.accounts a.poolInputTokenVault).isSome then s.ledger
    else s.ledger.setAccount a.poolInputTokenVault
      (some (.fresh a.tokenProgram a.inputTokenMint a.pool))
  pools := s.pools

theorem State.withVault_of_some {v : TokenAccount Pubkey}
    (h : s.ledger.accounts a.poolInputTokenVault = some v) : s.withVault a = s := by
  simp [State.withVault, h]

theorem State.withVault_of_none (h : s.ledger.accounts a.poolInputTokenVault = none) :
    s.withVault a = ⟨s.ledger.setAccount a.poolInputTokenVault
      (some (.fresh a.tokenProgram a.inputTokenMint a.pool)), s.pools⟩ := by
  simp [State.withVault, h]

theorem State.withVault_vault (s : State) (a : InitializeAccounts) :
    ∃ v, (s.withVault a).ledger.accounts a.poolInputTokenVault = some v := by
  cases h : s.ledger.accounts a.poolInputTokenVault with
  | none =>
      rw [State.withVault_of_none h]
      exact ⟨_, if_pos rfl⟩
  | some v =>
      rw [State.withVault_of_some h]
      exact ⟨v, h⟩

/-- The vault is none of the accounts that a new pool must not find. -/
theorem InitializeAccounts.Openable.withVault_iff :
    a.Openable findBump (s.withVault a) ↔ a.Openable findBump s := by
  cases h : s.ledger.accounts a.poolInputTokenVault with
  | some v => rw [State.withVault_of_some h]
  | none =>
      rw [State.withVault_of_none h]
      have hne : ∀ {t : State}, a.Openable findBump t → a.pool ≠ a.poolInputTokenVault := by
        intro t ht heq
        rw [ht.vault_key, ht.pool_eq] at heq
        cases heq
      constructor
      · intro ho
        refine { ho with pool_no_account := ?_ }
        have hnone := ho.pool_no_account
        rw [Ledger.setAccount_accounts, if_neg (hne ho)] at hnone
        exact hnone
      · intro ho
        refine { ho with pool_no_account := ?_ }
        show (s.ledger.setAccount _ _).accounts a.pool = none
        rw [Ledger.setAccount_accounts, if_neg (hne ho)]
        exact ho.pool_no_account

theorem withVault_of_create {p : Privileges Pubkey} {t : State}
    (h : createAssociatedTokenIdempotent p a.poolInputTokenVault a.pool a.tokenProgram
      a.inputTokenMint s = .ok t) : t = s.withVault a := by
  obtain ⟨-, ⟨v, hv, -, -, -, rfl⟩ | ⟨-, hnone, -, -, rfl⟩⟩ :=
    createAssociatedTokenIdempotent_eq_ok_iff.1 h
  · exact (State.withVault_of_some hv).symm
  · exact (State.withVault_of_none hnone).symm

/-- The vault of a new pool is there, or it can be created. -/
theorem create_withVault {p : Privileges Pubkey} (hw : p.writable a.poolInputTokenVault = true)
    (hl : LedgerSound s.ledger) (ho : a.Openable findBump s) :
    createAssociatedTokenIdempotent p a.poolInputTokenVault a.pool a.tokenProgram a.inputTokenMint
      s = .ok (s.withVault a) := by
  obtain ⟨im, om, him, himp, -⟩ := ho.mints
  have hpool := isPool_of_eq ho.pool_eq
  apply createAssociatedTokenIdempotent_eq_ok_iff.2
  cases h : s.ledger.accounts a.poolInputTokenVault with
  | some v =>
      have hv := ho.vault_key ▸ h
      exact ⟨ho.vault_key, Or.inl ⟨v, rfl, hl.program _ _ _ v hv,
        (hl.held _ _ _ v hpool hv).owner_eq, hl.associated _ _ _ v hv, State.withVault_of_some h⟩⟩
  | none =>
      exact ⟨ho.vault_key, Or.inr ⟨hw, rfl, ho.vault_key ▸ hl.no_mint _ _ _, ⟨im, him, himp⟩,
        State.withVault_of_none h⟩⟩

theorem createPool_attempt_iff (hs : Sound findBump s) :
    (createPool programs a limit).attempt findBump s = .ok s' ↔
      a.Openable findBump s ∧
        s' = (s.withVault a).setPool a.pool ⟨findBump a.outputTokenMint, a.inputTokenMint,
          a.outputTokenMint, a.delegateAuthority, limit⟩ := by
  have hi : TxIx.call programs (.initializePool a limit) [] ∈ createPool programs a limit :=
    List.mem_cons_of_mem _ List.mem_cons_self
  obtain ⟨-, -, -, hw⟩ := Tx.initialize_privileges hi
  have hsound : ∀ {p : Privileges Pubkey} {t : State},
      createAssociatedTokenIdempotent p a.poolInputTokenVault a.pool a.tokenProgram a.inputTokenMint
        s = .ok t → LedgerSound t.ledger := by
    intro p t h
    obtain ⟨hk, ⟨-, -, -, -, -, rfl⟩ | ⟨-, hnone, -, ⟨m, hm, hmp⟩, rfl⟩⟩ :=
      createAssociatedTokenIdempotent_eq_ok_iff.1 h
    · exact hs.ledger
    · exact hk ▸ create_ledgerSound hs.ledger (hk ▸ hnone) hm hmp
  rw [Tx.attempt, createPool, Rollback.bundle_cons_eq_ok_iff]
  simp only [Rollback.bundle_singleton, TxIx.attempt, Action.attempt]
  constructor
  · rintro ⟨t, hcreate, hinit⟩
    obtain ⟨ho, -, rfl⟩ := (initializePool_iff hi (hsound hcreate)).1 hinit
    obtain rfl := withVault_of_create hcreate
    exact ⟨InitializeAccounts.Openable.withVault_iff.1 ho, rfl⟩
  · rintro ⟨ho, rfl⟩
    have hcreate := create_withVault hw hs.ledger ho
    exact ⟨s.withVault a, hcreate, (initializePool_iff hi (hsound hcreate)).2
      ⟨InitializeAccounts.Openable.withVault_iff.2 ho, s.withVault_vault a, rfl⟩⟩

theorem createPool_sound (hs : Sound findBump s)
    (h : (createPool programs a limit).attempt findBump s = .ok s') : Sound findBump s' := by
  rw [Tx.attempt, createPool, Rollback.bundle_cons_eq_ok_iff] at h
  obtain ⟨t, hcreate, hinit⟩ := h
  rw [Rollback.bundle_singleton] at hinit
  refine (initialize_sound hinit ?_).1
  obtain ⟨hk, ⟨-, -, -, -, -, rfl⟩ | ⟨-, hnone, hfree, ⟨m, hm, hmp⟩, rfl⟩⟩ :=
    createAssociatedTokenIdempotent_eq_ok_iff.1 hcreate
  · exact hs
  · -- nobody has to sign for the vault
    let p : Privileges Pubkey := ⟨fun _ => true, fun _ => false, fun _ => true⟩
    exact attempt_sound
      (a := .create p a.poolInputTokenVault a.pool a.tokenProgram a.inputTokenMint)
      (fun _ hk => by cases hk) trivial
      (attempt_create_iff.2 ⟨rfl, hk, m, hfree, hnone, hm, hmp, rfl⟩) hs

theorem State.withVault_balance (s : State) (a : InitializeAccounts) (k : Pubkey) :
    (s.withVault a).ledger.balance k = s.ledger.balance k := by
  cases h : s.ledger.accounts a.poolInputTokenVault with
  | some v => rw [State.withVault_of_some h]
  | none =>
      rw [State.withVault_of_none h]
      exact Ledger.balance_create h _ _ _ k

theorem State.withVault_supply (s : State) (a : InitializeAccounts) (m : Pubkey) :
    (s.withVault a).ledger.supply m = s.ledger.supply m := by
  cases h : s.ledger.accounts a.poolInputTokenVault with
  | some v => rw [State.withVault_of_some h]
  | none =>
      rw [State.withVault_of_none h]
      rfl

/-- The transaction of `migrations/initialize.ts` in a sound state. It opens a pool exactly when the
accounts are those of a new pool, whether or not the vault is there, where the instruction by itself
also needs the vault. The state is sound after it, the pool has its record and no output tokens, and
no balance and no supply has changed. -/
theorem createPool_opens (programs : Programs) (a : InitializeAccounts) (limit : UInt64)
    (hs : Sound findBump s) :
    ((∃ s', (createPool programs a limit).attempt findBump s = .ok s') ↔ a.Openable findBump s) ∧
      ((∃ s', Tx.attempt findBump [.call programs (.initializePool a limit) []] s = .ok s') ↔
        a.Openable findBump s ∧ ∃ v, s.ledger.accounts a.poolInputTokenVault = some v) ∧
      ∀ s', (createPool programs a limit).attempt findBump s = .ok s' →
        Sound findBump s' ∧
          s'.pools a.pool = some ⟨findBump a.outputTokenMint, a.inputTokenMint, a.outputTokenMint,
            a.delegateAuthority, limit⟩ ∧
          s'.ledger.supply a.outputTokenMint = 0 ∧
          (∀ k, s'.ledger.balance k = s.ledger.balance k) ∧
          ∀ m, s'.ledger.supply m = s.ledger.supply m := by
  refine ⟨?_, ?_, ?_⟩
  · constructor
    · rintro ⟨s', h⟩
      exact (createPool_attempt_iff hs).1 h |>.1
    · intro ho
      exact ⟨_, (createPool_attempt_iff hs).2 ⟨ho, rfl⟩⟩
  · rw [Tx.attempt]
    simp only [Rollback.bundle_singleton, TxIx.attempt, Action.attempt,
      initializePool_iff List.mem_cons_self hs.ledger]
    constructor
    · rintro ⟨s', ho, hv, -⟩
      exact ⟨ho, hv⟩
    · rintro ⟨ho, hv⟩
      exact ⟨_, ho, hv, rfl⟩
  · intro s' h
    obtain ⟨ho, hs'⟩ := (createPool_attempt_iff hs).1 h
    obtain ⟨im, om, -, -, hom, -, -, -, -, homs⟩ := ho.mints
    have hsupply : ∀ m, s'.ledger.supply m = s.ledger.supply m := by
      intro m
      rw [hs']
      exact s.withVault_supply a m
    refine ⟨createPool_sound hs h, ?_, ?_, ?_, hsupply⟩
    · rw [hs']
      exact if_pos rfl
    · rw [hsupply, Ledger.supply_of_some hom, homs]
    · intro k
      rw [hs']
      exact s.withVault_balance a k

/-! ### The script -/

/-- `createMintInstructions` of `scripts/helpers.ts`. -/
def createMintInstructions (payer mint mintAuthority : Pubkey) (freezeAuthority : Option Pubkey)
    (decimals : UInt8) : Tx :=
  [.token payer (.program .token) (.initializeMint mint decimals mintAuthority freezeAuthority)]

/-- `mintSetAuthorityInstruction` of `scripts/helpers.ts`: both authorities of a mint change
hands. -/
def mintSetAuthorityInstruction (account currentAuthority : Pubkey)
    (newAuthority : Option Pubkey) : Tx :=
  [.token currentAuthority (.program .token)
      (.setAuthority account currentAuthority (.mintTokens newAuthority)),
    .token currentAuthority (.program .token)
      (.setAuthority account currentAuthority (.freezeAccount newAuthority))]

/-- The transaction that `scripts/initialize.ts` is to send, repaired in two places: with the limit,
which the script does not pass to `initialize`, and without the signature of the delegate authority,
which the message does not list. -/
def createMintAndPool (programs : Programs) (a : InitializeAccounts) (limit : UInt64) : Tx :=
  createMintInstructions a.signer a.outputTokenMint a.signer (some a.signer) 9 ++
    mintSetAuthorityInstruction a.outputTokenMint a.signer (some a.pool) ++
    [.call programs (.initializePool a limit) []]

/-- The state with a mint. -/
def State.setMint (s : State) (k : Pubkey) (x : Mint Pubkey) : State where
  ledger := s.ledger.setMint k x
  pools := s.pools

theorem State.setMint_setMint (s : State) (k : Pubkey) (x y : Mint Pubkey) :
    (s.setMint k x).setMint k y = s.setMint k y := by
  ext j m
  · simp only [State.setMint, Ledger.setMint_mints]
    split
    · rfl
    · rfl
  · rfl
  · rfl

theorem attempt_initializeMint_iff {p : Privileges Pubkey} {mint authority : Pubkey}
    {freeze : Option Pubkey} {decimals : UInt8} {t : State} (hsigner : p.signer mint = true)
    (hadm : ∀ m ∈ (TokenIx.initializeMint mint decimals authority freeze).metas,
      p.admits m = true) :
    Action.attempt findBump
        (.token p (.program .token) (.initializeMint mint decimals authority freeze)) s = .ok t ↔
      s.ledger.mints mint = none ∧ s.ledger.accounts mint = none ∧
        t = s.setMint mint ⟨some authority, freeze, 0, decimals, .program .token, none⟩ := by
  rw [attempt_token_iff]
  constructor
  · rintro ⟨-, -, l, hl, rfl⟩
    obtain ⟨hmint, haccount, rfl⟩ :=
      (processInitializeMint_eq_ok_iff ..).1 ((exec_eq_ok_iff ..).1 hl).2
    exact ⟨hmint, haccount, rfl⟩
  · rintro ⟨hmint, haccount, rfl⟩
    refine ⟨rfl, ?_, _, (exec_eq_ok_iff ..).2 ⟨hadm,
      (processInitializeMint_eq_ok_iff ..).2 ⟨hmint, haccount, rfl⟩⟩, rfl⟩
    intro k hk
    obtain rfl := Option.mem_some_iff.1 hk
    exact hsigner

/-- The holder of the authorities over a mint can give them away. -/
theorem attempt_setAuthority {p : Privileges Pubkey} {mint authority : Pubkey} {x y : Mint Pubkey}
    {change : AuthorityChange Pubkey} (hprogram : x.program = .program .token)
    (hchange : (∃ new, change = .mintTokens new ∧ x.mintAuthority = some authority ∧
        y = { x with mintAuthority := new }) ∨
      ∃ new, change = .freezeAccount new ∧ x.freezeAuthority = some authority ∧
        y = { x with freezeAuthority := new })
    (hadm : ∀ m ∈ (TokenIx.setAuthority mint authority change).metas, p.admits m = true) :
    Action.attempt findBump (.token p (.program .token) (.setAuthority mint authority change))
      (s.setMint mint x) = .ok (s.setMint mint y) := by
  have hx : (s.setMint mint x).ledger.mints mint = some x := if_pos rfl
  rw [← State.setMint_setMint s mint x y]
  refine attempt_token_iff.2 ⟨rfl, fun k hk => (by cases hk), _, (exec_eq_ok_iff ..).2 ⟨hadm,
    (processSetAuthority_eq_ok_iff ..).2 ?_⟩, rfl⟩
  rcases hchange with ⟨new, rfl, hauth, rfl⟩ | ⟨new, rfl, hauth, rfl⟩
  · exact ⟨x, hx, hprogram, hauth, rfl⟩
  · exact ⟨x, hx, hprogram, hauth, rfl⟩

/-- The state with the new mint, which belongs to the pool. -/
def State.withMint (s : State) (a : InitializeAccounts) : State :=
  s.setMint a.outputTokenMint ⟨some a.pool, some a.pool, 0, 9, .program .token, none⟩

/-- The first three instructions of the script make that mint. -/
theorem createMint_iff {tx rest : Tx} {t : State}
    (hi : ∀ i ∈ createMintInstructions a.signer a.outputTokenMint a.signer (some a.signer) 9 ++
      mintSetAuthorityInstruction a.outputTokenMint a.signer (some a.pool), i ∈ tx) :
    Rollback.bundle (fun i => TxIx.attempt findBump (tx.privileges i) i)
        (createMintInstructions a.signer a.outputTokenMint a.signer (some a.signer) 9 ++
          mintSetAuthorityInstruction a.outputTokenMint a.signer (some a.pool) ++ rest) s = .ok t ↔
      (s.ledger.mints a.outputTokenMint = none ∧ s.ledger.accounts a.outputTokenMint = none) ∧
        Rollback.bundle (fun i => TxIx.attempt findBump (tx.privileges i) i) rest (s.withMint a) =
          .ok t := by
  have hadm : ∀ i ∈ createMintInstructions a.signer a.outputTokenMint a.signer (some a.signer) 9 ++
      mintSetAuthorityInstruction a.outputTokenMint a.signer (some a.pool),
      ∀ m ∈ i.metas, (tx.privileges i).admits m = true :=
    fun i hmem m hm => Tx.privileges_admits (hi i hmem) hm
  simp only [createMintInstructions, mintSetAuthorityInstruction, List.cons_append, List.nil_append,
    List.forall_mem_cons, List.not_mem_nil, false_imp_iff, implies_true, and_true] at hadm
  obtain ⟨hmint, htokens, hfreeze⟩ := hadm
  have hsigner := signer_of_admits (hmint (accountMeta a.outputTokenMint true)
    (by simp [TxIx.metas, Action.allocated])) rfl
  have hmade := fun t => @attempt_initializeMint_iff findBump s _ _ _ _ _ t hsigner
    fun m hm => hmint m (List.mem_append_right _ hm)
  -- the signer has both authorities and gives them to the pool
  have hgiven := @attempt_setAuthority findBump s _ _ _
    ⟨some a.signer, some a.signer, 0, 9, .program .token, none⟩ _ _ rfl
    (Or.inl ⟨some a.pool, rfl, rfl, rfl⟩) htokens
  have hgiven' := @attempt_setAuthority findBump s _ _ _
    ⟨some a.pool, some a.signer, 0, 9, .program .token, none⟩ _ _ rfl
    (Or.inr ⟨some a.pool, rfl, rfl, rfl⟩) hfreeze
  simp only [createMintInstructions, mintSetAuthorityInstruction, List.cons_append, List.nil_append,
    Rollback.bundle_cons_eq_ok_iff, TxIx.attempt]
  constructor
  · rintro ⟨t₁, h₁, t₂, h₂, t₃, h₃, hrest⟩
    obtain ⟨hnone, hfree, rfl⟩ := (hmade t₁).1 h₁
    obtain rfl := Except.ok.inj (hgiven.symm.trans h₂)
    obtain rfl := Except.ok.inj (hgiven'.symm.trans h₃)
    exact ⟨⟨hnone, hfree⟩, hrest⟩
  · rintro ⟨⟨hnone, hfree⟩, hrest⟩
    exact ⟨_, (hmade _).2 ⟨hnone, hfree, rfl⟩, _, hgiven, _, hgiven', hrest⟩

theorem withMint_sound {tx : Tx} (hs : Sound findBump s) (hw : tx.FromOutside)
    (hi : ∀ i ∈ createMintInstructions a.signer a.outputTokenMint a.signer (some a.signer) 9 ++
      mintSetAuthorityInstruction a.outputTokenMint a.signer (some a.pool), i ∈ tx)
    (hnone : s.ledger.mints a.outputTokenMint = none)
    (hfree : s.ledger.accounts a.outputTokenMint = none) : Sound findBump (s.withMint a) := by
  have hmade : Rollback.bundle (fun i => TxIx.attempt findBump (tx.privileges i) i) _ s =
      .ok (s.withMint a) := (createMint_iff hi).2 ⟨⟨hnone, hfree⟩, Rollback.bundle_nil _⟩
  obtain ⟨as, has, hrun⟩ : Rollback.Reaches (Action.attempt findBump)
      (fun x => x.FromOutside ∧ x.Uses FundsOnly) s (s.withMint a) := by
    refine Rollback.bundle_simulated ?_ hmade
    intro i hmem t t' h
    refine txIx_reaches (fun k hk => hw.signer hk) ?_ h
    simp only [createMintInstructions, mintSetAuthorityInstruction, List.cons_append,
      List.nil_append, List.mem_cons, List.not_mem_nil, or_false] at hmem
    rcases hmem with rfl | rfl | rfl <;> trivial
  rw [← hrun]
  exact run_sound has hs

/-- What the repaired transaction of `scripts/initialize.ts` needs. -/
structure InitializeAccounts.Launchable (findBump : Pubkey → UInt8) (a : InitializeAccounts)
    (s : State) : Prop where
  tokenProgram : a.tokenProgram = .program .token
  associatedTokenProgram : a.associatedTokenProgram = .program .associatedToken
  systemProgram : a.systemProgram = .program .system
  pool_eq : a.pool = poolAddress a.outputTokenMint (findBump a.outputTokenMint)
  vault_key : a.poolInputTokenVault =
    getAssociatedTokenAddress a.pool a.tokenProgram a.inputTokenMint
  pool_none : s.pools a.pool = none
  pool_no_account : s.ledger.accounts a.pool = none
  pool_no_mint : s.ledger.mints a.pool = none
  outputMint_none : s.ledger.mints a.outputTokenMint = none
  outputMint_no_account : s.ledger.accounts a.outputTokenMint = none
  inputMint : ∃ im, s.ledger.mints a.inputTokenMint = some im ∧ im.program = .program .token ∧
    im.decimals = 9
  vault : ∃ v, s.ledger.accounts a.poolInputTokenVault = some v

theorem InitializeAccounts.launchable_iff (hl : LedgerSound s.ledger)
    (hmint : a.outputTokenMint.isReserved = false) :
    a.Launchable findBump s ↔
      (s.ledger.mints a.outputTokenMint = none ∧ s.ledger.accounts a.outputTokenMint = none) ∧
        (∃ v, s.ledger.accounts a.poolInputTokenVault = some v) ∧
        a.Openable findBump (s.withMint a) := by
  have hmints : ∀ m, (s.withMint a).ledger.mints m = if m = a.outputTokenMint
      then some ⟨some a.pool, some a.pool, 0, 9, .program .token, none⟩ else s.ledger.mints m :=
    fun m => rfl
  constructor
  · intro h
    obtain ⟨im, him, himp, himd⟩ := h.inputMint
    have hpool := Pubkey.ne_of_not_isReserved (isPool_of_eq h.pool_eq) hmint
    -- the input mint was there before, so the new mint hides nothing
    have hinput : a.inputTokenMint ≠ a.outputTokenMint := by
      intro heq
      rw [heq, h.outputMint_none] at him
      cases him
    refine ⟨⟨h.outputMint_none, h.outputMint_no_account⟩, h.vault, ?_⟩
    exact {
      tokenProgram := by rw [h.tokenProgram]; rfl
      associatedTokenProgram := h.associatedTokenProgram
      systemProgram := h.systemProgram
      pool_eq := h.pool_eq
      vault_key := h.vault_key
      pool_none := h.pool_none
      pool_no_account := h.pool_no_account
      pool_no_mint := by
        rw [hmints, if_neg hpool.symm]
        exact h.pool_no_mint
      mints := by
        refine ⟨im, _, ?_, himp.trans h.tokenProgram.symm, (hmints _).trans (if_pos rfl),
          h.tokenProgram.symm, rfl, rfl, himd.symm, rfl⟩
        rw [hmints, if_neg hinput]
        exact him }
  · rintro ⟨⟨hnone, hfree⟩, ⟨v, hv⟩, ho⟩
    obtain ⟨im, om, him, himp, hom, homp, -, -, homd, -⟩ := ho.mints
    rw [hmints, if_pos rfl] at hom
    obtain rfl := Option.some.inj hom
    -- the vault is there, so its mint was there before the new one
    have hinput : a.inputTokenMint ≠ a.outputTokenMint := by
      intro heq
      obtain ⟨x, hx, -⟩ := hl.mint_some _ v hv
      rw [hl.associated _ _ _ v (ho.vault_key ▸ hv), heq, hnone] at hx
      cases hx
    rw [hmints, if_neg hinput] at him
    have hpool_no_mint := ho.pool_no_mint
    rw [hmints, if_neg (Pubkey.ne_of_not_isReserved (isPool_of_eq ho.pool_eq) hmint).symm]
      at hpool_no_mint
    exact ⟨homp.symm, ho.associatedTokenProgram, ho.systemProgram, ho.pool_eq, ho.vault_key,
      ho.pool_none, ho.pool_no_account, hpool_no_mint, hnone, hfree,
      ⟨im, him, himp.trans homp.symm, homd.symm⟩, v, hv⟩

end Opening

namespace Sample

theorem opened_sound : Sound findBump (opened 1000) :=
  attempt_sound (a := initialization 1000) (signedBy_outside rfl) registry.honest.fundsOnly
    (initialization_eq 1000) (sound_deployed findBump ledger_sound)

/-- After the first deposit the authority delegates fifty tokens with the account created first. -/
theorem delegation_created :
    ∃ s', (createThen registry.programs delegation (.delegate delegation 50) []).attempt findBump
      (run findBump (opened 1000) [deposit 80]) = .ok s' := by
  have hs : Sound findBump (run findBump (opened 1000) [deposit 80]) := by
    refine run_sound ?_ opened_sound
    intro a ha
    obtain rfl : a = deposit 80 := by simpa using ha
    exact ⟨signedBy_outside rfl, registry.honest.fundsOnly⟩
  obtain ⟨s', hs', -⟩ : ∃ s', Runtime.execute ⟨findBump, registry.programs⟩
      ((createThen registry.programs delegation (.delegate delegation 50) []).privileges
        (.call registry.programs (.delegate delegation 50) [])) (.delegate delegation 50)
      (run findBump (opened 1000) [deposit 80]) = .ok s' ∧ true = true := exists_eq_ok (by decide)
  exact ⟨s', (createThen_attempt_iff hs (Or.inl rfl)).2 hs'⟩

/-- The ledger without the vault. -/
def ledgerWithoutVault : Ledger Pubkey :=
  .ofLists
    [(inputMint, mintOf authority 100), (outputMint, mintOf pool 0), (avsMint, mintOf avs 0)]
    [account user inputMint 100, account avs inputMint 0]

theorem pool_created :
    (∃ s', (createPool registry.programs opening 300).attempt findBump
        (deployed ledgerWithoutVault) = .ok s') ∧
      ¬ ∃ s', Tx.attempt findBump [.call registry.programs (.initializePool opening 300) []]
        (deployed ledgerWithoutVault) = .ok s' := by
  have hl : LedgerSound ledgerWithoutVault :=
    ledgerSound_ofLists (by decide) (by decide) (by decide)
  obtain ⟨hcreate, halone, -⟩ := createPool_opens registry.programs opening 300
    (sound_deployed findBump hl)
  refine ⟨hcreate.2 ?_, fun h => ?_⟩
  · exact ⟨rfl, rfl, rfl, rfl, rfl, rfl, rfl, rfl, mintOf authority 100, mintOf pool 0, rfl, rfl,
      rfl, rfl, rfl, rfl, rfl, rfl⟩
  · obtain ⟨-, v, hv⟩ := halone.1 h
    cases hv

/-- The ledger with the vault and without the output mint. -/
def ledgerWithoutMint : Ledger Pubkey :=
  .ofLists [(inputMint, mintOf authority 100), (avsMint, mintOf avs 0)]
    [account user inputMint 100, account pool inputMint 0, account avs inputMint 0]

end Sample

end AdraLrt
