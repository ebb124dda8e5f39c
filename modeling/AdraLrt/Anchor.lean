import AdraLrt.Runtime

/-!
# Account checks

The checks that the framework generates from the attributes of an accounts struct. Deserializing an
account leaves a copy of its data in the struct (`Loaded`), which later calls do not refresh; only
`reload` does.

`checkAssociatedToken` follows the framework at the version in use: without
`associated_token::token_program` it compares the address with the derivation under the legacy token
program, and it compares the owner but not the mint of the account. `initIfNeeded` creates the
account when nothing is at its address, and otherwise compares mint, owner, program and address.

The framework deserializes the fields of a struct in their order, then creates what is to be
initialized, and then tests the constraints of the other fields, one field after the other. Within a
field the order is fixed: seeds, associated token, `mut`, `has_one`, `constraint`, `address`, mint.
Lamports are left out, so an address without data counts as one that nobody has paid for.
-/

set_option autoImplicit false

namespace AdraLrt

open TokenLedger Checked

/-- An account with the copy of its data that deserialization made. -/
structure Loaded (α : Type) where
  key : Pubkey
  account : α

/-- `Signer`. -/
def checkSigner (p : Privileges Pubkey) (k : Pubkey) : Except ProgramError Unit :=
  require (p.signer k = true) (.anchor .accountNotSigner)

/-- `mut`. -/
def checkMut (p : Privileges Pubkey) (k : Pubkey) : Except ProgramError Unit :=
  require (p.writable k = true) (.anchor .constraintMut)

/-- `Program<AssociatedToken>` and `Program<System>`. -/
def checkProgram (k : Pubkey) (program : Program) : Except ProgramError Unit :=
  require (k = .program program) (.anchor .invalidProgramId)

/-- `Interface<TokenInterface>`. -/
def checkTokenInterface (k : Pubkey) : Except ProgramError Unit :=
  require (isTokenInterface k = true) (.anchor .invalidProgramId)

/-- What a token account or a mint that is not at `k` fails to deserialize with: the owner of the
account comes before its data. -/
def State.notOfToken (s : State) (k : Pubkey) : ProgramError :=
  if (s.ledger.mints k).isSome || (s.ledger.accounts k).isSome then .invalidAccountData
  else if (s.pools k).isSome || k.isProgram then .anchor .accountOwnedByWrongProgram
  else .anchor .accountNotInitialized

/-- The same of a pool record. -/
def State.notAPool (s : State) (k : Pubkey) : ProgramError :=
  if (s.ledger.mints k).isSome || (s.ledger.accounts k).isSome || k.isProgram then
    .anchor .accountOwnedByWrongProgram
  else .anchor .accountNotInitialized

/-- `InterfaceAccount<Mint>`. -/
def loadMint (s : State) (k : Pubkey) : Except ProgramError (Loaded (Mint Pubkey)) := do
  let m ← orError (s.notOfToken k) (s.ledger.mints k)
  require (isTokenInterface m.program = true) (.anchor .accountOwnedByWrongProgram)
  pure ⟨k, m⟩

/-- `InterfaceAccount<TokenAccount>`. -/
def loadToken (s : State) (k : Pubkey) : Except ProgramError (Loaded (TokenAccount Pubkey)) := do
  let a ← orError (s.notOfToken k) (s.ledger.accounts k)
  require (isTokenInterface a.program = true) (.anchor .accountOwnedByWrongProgram)
  pure ⟨k, a⟩

/-- `Account<LRTPool>`. -/
def loadPool (s : State) (k : Pubkey) : Except ProgramError (Loaded LRTPool) := do
  let r ← orError (s.notAPool k) (s.pools k)
  pure ⟨k, r⟩

/-- The `mint::` attributes of a field; an absent one is not checked. -/
structure MintConstraint where
  decimals : Option UInt8
  authority : Option Pubkey
  freezeAuthority : Option Pubkey
  tokenProgram : Option Pubkey

/-- `x` is what the attribute asks for. -/
def asked {α : Type} (required : Option α) (x : α) : Prop :=
  ∀ y ∈ required, x = y

instance {α : Type} [DecidableEq α] (required : Option α) (x : α) :
    Decidable (asked required x) :=
  match required with
  | none => isTrue (by simp [asked])
  | some y => decidable_of_iff (x = y) (by simp [asked])

def checkMint (m : Loaded (Mint Pubkey)) (c : MintConstraint) : Except ProgramError Unit := do
  require (asked c.decimals m.account.decimals) (.anchor .constraintMintDecimals)
  require (asked (c.authority.map some) m.account.mintAuthority)
    (.anchor .constraintMintMintAuthority)
  require (asked (c.freezeAuthority.map some) m.account.freezeAuthority)
    (.anchor .constraintMintFreezeAuthority)
  require (asked c.tokenProgram m.account.program) (.anchor .constraintMintTokenProgram)

/-- `associated_token::mint`, `associated_token::authority` and, where given,
`associated_token::token_program`, on a field that is not initialized. -/
def checkAssociatedToken (v : Loaded (TokenAccount Pubkey)) (mint authority : Pubkey)
    (tokenProgram : Option Pubkey) : Except ProgramError Unit := do
  require (asked tokenProgram v.account.program) (.anchor .constraintAssociatedTokenTokenProgram)
  require (v.account.owner = authority) (.anchor .constraintTokenOwner)
  require (v.key = getAssociatedTokenAddress authority
    (tokenProgram.getD (.program .token)) mint) (.anchor .constraintAssociated)

/-- The account of a field with `init_if_needed` and `associated_token` attributes. -/
def findOrCreate (p : Privileges Pubkey) (payer k mint authority tokenProgram : Pubkey)
    (s : State) : Except ProgramError (Loaded (TokenAccount Pubkey) × State) :=
  match s.ledger.accounts k with
  -- the mint is compared too, and a wrong address has another error than without `init_if_needed`
  | some a => do
    require (a.mint = mint) (.anchor .constraintTokenMint)
    require (a.owner = authority) (.anchor .constraintTokenOwner)
    require (a.program = tokenProgram) (.anchor .constraintAssociatedTokenTokenProgram)
    require (k = getAssociatedTokenAddress authority tokenProgram mint)
      (.anchor .accountNotAssociatedTokenAccount)
    pure (⟨k, a⟩, s)
  | none => do
    -- only what belongs to the system program is created
    require (s.ledger.mints k = none ∧ s.pools k = none ∧ k.isProgram = false) (s.notOfToken k)
    -- the payer is handed over as writable, and the program that is called checks the address
    require (p.writable payer = true) .privilegeEscalation
    let s' ← createAssociatedToken p k authority tokenProgram mint s
    pure (⟨k, .fresh tokenProgram mint authority⟩, s')

/-- `init_if_needed` with `associated_token` attributes, which implies `mut`. -/
def initIfNeeded (p : Privileges Pubkey) (payer k mint authority tokenProgram : Pubkey)
    (s : State) : Except ProgramError (Loaded (TokenAccount Pubkey) × State) := do
  let found ← findOrCreate p payer k mint authority tokenProgram s
  checkMut p k
  pure found

/-- The type of a field, as far as deserializing it can fail. A field to be initialized is taken as
it is, like an `AccountInfo`. -/
inductive FieldType where
  | signer
  | accountInfo
  | mint
  | tokenAccount
  | pool
  | program (p : Program)
  | tokenInterface
deriving DecidableEq, Repr

def FieldType.load (p : Privileges Pubkey) (s : State) (k : Pubkey) :
    FieldType → Except ProgramError Unit
  | signer => checkSigner p k
  | accountInfo => pure ()
  | mint => do
    let _ ← loadMint s k
    pure ()
  | tokenAccount => do
    let _ ← loadToken s k
    pure ()
  | pool => do
    let _ ← loadPool s k
    pure ()
  | program q => checkProgram k q
  | tokenInterface => checkTokenInterface k

/-- The fields of a struct are deserialized one after the other, each from the next account. -/
def deserialize (p : Privileges Pubkey) (s : State) :
    List FieldType → List Pubkey → Except ProgramError Unit
  | [], _ => pure ()
  | _ :: _, [] => .error (.anchor .accountNotEnoughKeys)
  | f :: fs, k :: ks => do
    f.load p s k
    deserialize p s fs ks

/-- `has_one`. -/
def checkHasOne (recorded given : Pubkey) : Except ProgramError Unit :=
  require (recorded = given) (.anchor .constraintHasOne)

/-- `address`. -/
def checkAddress (k expected : Pubkey) : Except ProgramError Unit :=
  require (k = expected) (.anchor .constraintAddress)

/-- `seeds = [b"lrt_pool", mint]` with `bump = bump`. -/
def checkSeeds (k mint : Pubkey) (bump : UInt8) : Except ProgramError Unit :=
  require (k = poolAddress mint bump) (.anchor .constraintSeeds)

/-- `reload` of a token account. -/
def reloadToken (s : State) (v : Loaded (TokenAccount Pubkey)) :
    Except ProgramError (Loaded (TokenAccount Pubkey)) :=
  loadToken s v.key

/-- `reload` of a mint. -/
def reloadMint (s : State) (m : Loaded (Mint Pubkey)) :
    Except ProgramError (Loaded (Mint Pubkey)) :=
  loadMint s m.key

/-- What the framework does after a handler: the cached copy of a mutable pool record is written
back. Token accounts and mints belong to another program and are not written. -/
def exit (pool : Loaded LRTPool) (s : State) : State :=
  s.setPool pool.key pool.account

/-! ## When the checks succeed -/

section Success

variable {p : Privileges Pubkey} {s s' : State} {payer k : Pubkey}

@[simp] theorem asked_none {α : Type} (x : α) : asked none x := by
  simp [asked]

@[simp] theorem asked_some {α : Type} (x y : α) : asked (some y) x ↔ x = y := by
  simp [asked]

@[simp] theorem checkSigner_eq_ok_iff (u : Unit) :
    checkSigner p k = .ok u ↔ p.signer k = true := by
  simp [checkSigner]

@[simp] theorem checkMut_eq_ok_iff (u : Unit) : checkMut p k = .ok u ↔ p.writable k = true := by
  simp [checkMut]

@[simp] theorem checkProgram_eq_ok_iff (program : Program) (u : Unit) :
    checkProgram k program = .ok u ↔ k = .program program := by
  simp [checkProgram]

@[simp] theorem checkTokenInterface_eq_ok_iff (u : Unit) :
    checkTokenInterface k = .ok u ↔ isTokenInterface k = true := by
  simp [checkTokenInterface]

@[simp] theorem loadMint_eq_ok_iff (m : Loaded (Mint Pubkey)) :
    loadMint s k = .ok m ↔
      m.key = k ∧ s.ledger.mints k = some m.account ∧
        isTokenInterface m.account.program = true := by
  simp only [loadMint, bind_eq_ok_iff, orError_eq_ok_iff, require_eq_ok_iff, pure_eq_ok_iff]
  constructor
  · rintro ⟨x, hx, _, hp, rfl⟩
    exact ⟨rfl, hx, hp⟩
  · rintro ⟨rfl, hx, hp⟩
    exact ⟨m.account, hx, (), hp, rfl⟩

@[simp] theorem loadToken_eq_ok_iff (v : Loaded (TokenAccount Pubkey)) :
    loadToken s k = .ok v ↔
      v.key = k ∧ s.ledger.accounts k = some v.account ∧
        isTokenInterface v.account.program = true := by
  simp only [loadToken, bind_eq_ok_iff, orError_eq_ok_iff, require_eq_ok_iff, pure_eq_ok_iff]
  constructor
  · rintro ⟨x, hx, _, hp, rfl⟩
    exact ⟨rfl, hx, hp⟩
  · rintro ⟨rfl, hx, hp⟩
    exact ⟨v.account, hx, (), hp, rfl⟩

@[simp] theorem loadPool_eq_ok_iff (r : Loaded LRTPool) :
    loadPool s k = .ok r ↔ r.key = k ∧ s.pools k = some r.account := by
  simp only [loadPool, bind_eq_ok_iff, orError_eq_ok_iff, pure_eq_ok_iff]
  constructor
  · rintro ⟨x, hx, rfl⟩
    exact ⟨rfl, hx⟩
  · rintro ⟨rfl, hx⟩
    exact ⟨r.account, hx, rfl⟩

@[simp] theorem checkMint_eq_ok_iff (m : Loaded (Mint Pubkey)) (c : MintConstraint) (u : Unit) :
    checkMint m c = .ok u ↔
      asked c.decimals m.account.decimals ∧
        asked (c.authority.map some) m.account.mintAuthority ∧
        asked (c.freezeAuthority.map some) m.account.freezeAuthority ∧
        asked c.tokenProgram m.account.program := by
  simp [checkMint]

@[simp] theorem checkAssociatedToken_eq_ok_iff (v : Loaded (TokenAccount Pubkey))
    (mint authority : Pubkey) (tokenProgram : Option Pubkey) (u : Unit) :
    checkAssociatedToken v mint authority tokenProgram = .ok u ↔
      asked tokenProgram v.account.program ∧ v.account.owner = authority ∧
        v.key = getAssociatedTokenAddress authority (tokenProgram.getD (.program .token)) mint := by
  simp [checkAssociatedToken]

@[simp] theorem checkHasOne_eq_ok_iff (recorded given : Pubkey) (u : Unit) :
    checkHasOne recorded given = .ok u ↔ recorded = given := by
  simp [checkHasOne]

@[simp] theorem checkAddress_eq_ok_iff (expected : Pubkey) (u : Unit) :
    checkAddress k expected = .ok u ↔ k = expected := by
  simp [checkAddress]

@[simp] theorem checkSeeds_eq_ok_iff (mint : Pubkey) (bump : UInt8) (u : Unit) :
    checkSeeds k mint bump = .ok u ↔ k = poolAddress mint bump := by
  simp [checkSeeds]

/-- A list that is too short fails, with the error of a field before the missing ones or for lack of
accounts. -/
theorem deserialize_of_short (p : Privileges Pubkey) (s : State) {fs : List FieldType}
    {ks : List Pubkey} (h : ks.length < fs.length) : ∃ e, deserialize p s fs ks = .error e := by
  induction fs generalizing ks with
  | nil => cases h
  | cons f fs ih =>
      cases ks with
      | nil => exact ⟨_, rfl⟩
      | cons k ks =>
          obtain ⟨e, he⟩ := ih (Nat.lt_of_succ_lt_succ h)
          unfold deserialize
          cases f.load p s k with
          | error e' => exact ⟨e', rfl⟩
          | ok u => exact ⟨e, he⟩

/-- The account that `initIfNeeded` returns is in the resulting state under the derived address, and
either nothing changed or an empty account was created. -/
theorem initIfNeeded_eq_ok_iff (mint authority tokenProgram : Pubkey)
    (v : Loaded (TokenAccount Pubkey)) :
    initIfNeeded p payer k mint authority tokenProgram s = .ok (v, s') ↔
      p.writable k = true ∧ k = getAssociatedTokenAddress authority tokenProgram mint ∧ v.key = k ∧
        ((s' = s ∧ s.ledger.accounts k = some v.account ∧ v.account.mint = mint ∧
            v.account.owner = authority ∧ v.account.program = tokenProgram) ∨
          (s.ledger.accounts k = none ∧ s.ledger.mints k = none ∧
            (∃ m, s.ledger.mints mint = some m ∧ m.program = tokenProgram) ∧
            v.account = .fresh tokenProgram mint authority ∧
            s' = { s with ledger := s.ledger.setAccount k (some v.account) } ∧
            p.writable payer = true ∧ s.pools k = none)) := by
  unfold initIfNeeded findOrCreate
  cases ha : s.ledger.accounts k with
  | some a =>
      simp only [bind_eq_ok_iff, checkMut_eq_ok_iff, require_eq_ok_iff, pure_eq_ok_iff]
      constructor
      · rintro ⟨_, ⟨_, hm, _, ho, _, hp, _, hk, rfl⟩, _, hw, heq⟩
        cases heq
        exact ⟨hw, hk, rfl, Or.inl ⟨rfl, rfl, hm, ho, hp⟩⟩
      · rintro ⟨hw, hk, hv, ⟨rfl, hv', hm, ho, hp⟩ | ⟨hnone, -⟩⟩
        · obtain rfl := Option.some.inj hv'
          exact ⟨_, ⟨(), hm, (), ho, (), hp, (), hk, rfl⟩, (), hw, by rw [← hv]⟩
        · simp at hnone
  | none =>
      simp only [bind_eq_ok_iff, checkMut_eq_ok_iff, require_eq_ok_iff,
        createAssociatedToken_eq_ok_iff, pure_eq_ok_iff]
      constructor
      · rintro ⟨_, ⟨_, ⟨hmk, hpk, -⟩, _, hpay, t, ⟨hw, hk, m, -, -, hx, hp, rfl⟩, rfl⟩, _, -, heq⟩
        cases heq
        exact ⟨hw, hk, rfl, Or.inr ⟨trivial, hmk, ⟨m, hx, hp⟩, rfl, rfl, hpay, hpk⟩⟩
      · rintro ⟨hw, hk, hv, ⟨-, hsome, -⟩ | ⟨-, hmk, ⟨m, hx, hp⟩, hfresh, rfl, hpay, hpk⟩⟩
        · simp at hsome
        · have hprogram : k.isProgram = false := by
            rw [hk]
            rfl
          refine ⟨_, ⟨(), ⟨hmk, hpk, hprogram⟩, (), hpay, _, ⟨hw, hk, m, hmk, ha, hx, hp, rfl⟩,
            rfl⟩, (), hw, ?_⟩
          rw [← hv, ← hfresh]

theorem initIfNeeded_key {mint authority tokenProgram : Pubkey}
    {v : Loaded (TokenAccount Pubkey)}
    (h : initIfNeeded p payer k mint authority tokenProgram s = .ok (v, s')) : v.key = k :=
  ((initIfNeeded_eq_ok_iff ..).1 h).2.2.1

theorem initIfNeeded_pools {mint authority tokenProgram : Pubkey}
    {v : Loaded (TokenAccount Pubkey)}
    (h : initIfNeeded p payer k mint authority tokenProgram s = .ok (v, s')) :
    s'.pools = s.pools := by
  rcases ((initIfNeeded_eq_ok_iff ..).1 h).2.2.2 with ⟨rfl, -⟩ | ⟨-, -, -, -, rfl, -⟩
  · rfl
  · rfl

/-- An account found after the creation was there before, or it is the new one. -/
theorem initIfNeeded_account_origin {mint authority tokenProgram j : Pubkey}
    {v : Loaded (TokenAccount Pubkey)} {b : TokenAccount Pubkey}
    (h : initIfNeeded p payer k mint authority tokenProgram s = .ok (v, s'))
    (hb : s'.ledger.accounts j = some b) : s.ledger.accounts j = some b ∨ b.mint = mint := by
  rcases ((initIfNeeded_eq_ok_iff ..).1 h).2.2.2 with ⟨rfl, -⟩ | ⟨-, -, -, hv, rfl, -⟩
  · exact Or.inl hb
  · rw [Ledger.setAccount_accounts] at hb
    split at hb
    · rw [hv] at hb
      exact Or.inr (Option.some.inj hb ▸ rfl)
    · exact Or.inl hb

theorem initIfNeeded_mints {mint authority tokenProgram : Pubkey}
    {v : Loaded (TokenAccount Pubkey)}
    (h : initIfNeeded p payer k mint authority tokenProgram s = .ok (v, s')) :
    s'.ledger.mints = s.ledger.mints := by
  rcases ((initIfNeeded_eq_ok_iff ..).1 h).2.2.2 with ⟨rfl, -⟩ | ⟨-, -, -, -, rfl, -⟩
  · rfl
  · rfl

theorem initIfNeeded_program {mint authority tokenProgram : Pubkey}
    {v : Loaded (TokenAccount Pubkey)}
    (h : initIfNeeded p payer k mint authority tokenProgram s = .ok (v, s')) :
    v.account.program = tokenProgram := by
  rcases ((initIfNeeded_eq_ok_iff ..).1 h).2.2.2 with ⟨-, -, -, -, hp⟩ | ⟨-, -, -, hv, -⟩
  · exact hp
  · rw [hv, TokenAccount.fresh]

/-- The account is there afterwards, as it was returned. -/
theorem initIfNeeded_account {mint authority tokenProgram : Pubkey}
    {v : Loaded (TokenAccount Pubkey)}
    (h : initIfNeeded p payer k mint authority tokenProgram s = .ok (v, s')) :
    s'.ledger.accounts k = some v.account := by
  rcases ((initIfNeeded_eq_ok_iff ..).1 h).2.2.2 with ⟨rfl, hv, -⟩ | ⟨-, -, -, -, rfl, -⟩
  · exact hv
  · simp

/-- An account that exists is not touched. -/
theorem initIfNeeded_account_of_some {mint authority tokenProgram j : Pubkey}
    {v : Loaded (TokenAccount Pubkey)} {a : TokenAccount Pubkey}
    (h : initIfNeeded p payer k mint authority tokenProgram s = .ok (v, s'))
    (hj : s.ledger.accounts j = some a) : s'.ledger.accounts j = some a := by
  rcases ((initIfNeeded_eq_ok_iff ..).1 h).2.2.2 with ⟨rfl, -⟩ | ⟨hnone, -, -, -, rfl, -⟩
  · exact hj
  · have hne : j ≠ k := by
      rintro rfl
      rw [hnone] at hj
      cases hj
    simpa [hne] using hj

/-- A created account is empty. -/
theorem initIfNeeded_balance {mint authority tokenProgram : Pubkey}
    {v : Loaded (TokenAccount Pubkey)}
    (h : initIfNeeded p payer k mint authority tokenProgram s = .ok (v, s')) (j : Pubkey) :
    s'.ledger.balance j = s.ledger.balance j := by
  rcases ((initIfNeeded_eq_ok_iff ..).1 h).2.2.2 with ⟨rfl, -⟩ | ⟨hnone, -, -, hv, rfl, -⟩
  · rfl
  · rw [hv]
    exact Ledger.balance_create hnone ..

/-- Writing back the record that was read changes only what the handler did to the ledger. -/
theorem exit_eq {r : LRTPool} {pools : Pubkey → Option LRTPool} (l : Ledger Pubkey)
    (h : s.pools k = some r) (hpools : pools = s.pools) :
    exit ⟨k, r⟩ ⟨l, pools⟩ = { s with ledger := l } := by
  rw [hpools]
  exact State.setPool_self (s := { s with ledger := l }) h

end Success

end AdraLrt
