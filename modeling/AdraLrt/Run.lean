import AdraLrt.Execute
import AdraLrt.TokenLedger.Rollback

/-!
# Runs

What can happen between two states: an instruction of the program, a token-program instruction, or
the creation of an associated token account. Each comes with the privileges that it runs with, those
of a transaction or of a call by another program, and an instruction of the program with the
behaviour that outside programs have at that time. What fails leaves the state as it was.

The program writes pool records only; `execute_pools` says everything an instruction can do to them.
-/

set_option autoImplicit false

namespace AdraLrt

open TokenLedger Checked

/-- A transaction. -/
inductive Action where
  | call (programs : Programs) (p : Privileges Pubkey) (c : Call)
  | token (p : Privileges Pubkey) (program : Pubkey) (ix : TokenIx Pubkey)
  | create (p : Privileges Pubkey) (key wallet tokenProgram mint : Pubkey)

namespace Action

/-- The privileges of the transaction. -/
def privileges : Action → Privileges Pubkey
  | call _ p _ => p
  | token p _ _ => p
  | create p _ _ _ _ => p

/-- Signers from outside: key pairs, and addresses that other programs derived, which may call the
program with their signatures. No pool and no associated address is among them. -/
def FromOutside (a : Action) : Prop :=
  ∀ k, a.privileges.signer k = true → k.isReserved = false

/-- Nobody among `ks` signs. -/
def NotSignedBy (ks : Set Pubkey) (a : Action) : Prop :=
  ∀ k ∈ ks, a.privileges.signer k = false

theorem FromOutside.notSignedBy_pools {a : Action} (h : a.FromOutside) :
    a.NotSignedBy {k | k.isPool = true} :=
  fun _ hk => not_signer_of_isPool h hk

/-- The address that a token-program instruction initializes. The transaction allocates it first,
which takes its signature. -/
def allocated : TokenIx Pubkey → Option Pubkey
  | .initializeMint mint _ _ _ => some mint
  | .initializeAccount account _ _ => some account
  | _ => none

/-- The behaviour of outside programs has the property `P`. -/
def Uses (P : Programs → Prop) : Action → Prop
  | call programs _ _ => P programs
  | token _ _ _ => True
  | create _ _ _ _ _ => True

theorem Uses.mono {P Q : Programs → Prop} {a : Action} (h : ∀ programs, P programs → Q programs)
    (hu : a.Uses P) : a.Uses Q := by
  cases a with
  | call programs p c => exact h programs hu
  | token p program ix => trivial
  | create p key wallet tokenProgram mint => trivial

/-- Attempt the transaction. -/
def attempt (findBump : Pubkey → UInt8) : Action → State → Except ProgramError State
  | call programs p c, s => Runtime.execute ⟨findBump, programs⟩ p c s
  -- an account to be initialized is allocated in the same transaction, under its own signature
  | token p program ix, s => do
    require (isTokenInterface program = true) (.anchor .invalidProgramId)
    require (∀ k ∈ allocated ix, p.signer k = true) (.anchor .accountNotSigner)
    tokenCpi p program ix s
  | create p key wallet tokenProgram mint, s =>
    createAssociatedToken p key wallet tokenProgram mint s

end Action

/-- The program before any pool was created, on a given token ledger. -/
def deployed (l : Ledger Pubkey) : State := ⟨l, fun _ => none⟩

/-- The state at the end of a run. -/
def run (findBump : Pubkey → UInt8) : State → List Action → State :=
  Rollback.run (Action.attempt findBump)

/-- The transactions of a run that succeed, in their order. -/
def committed (findBump : Pubkey → UInt8) : State → List Action → List Action :=
  Rollback.committed (Action.attempt findBump)

/-! ## Pool records -/

/-- The instruction sets the pool record to something else than it read. -/
def Call.setsRecord : Call → Bool
  | .initializePool _ _ => true
  | .transferDelegateAuthority _ => true
  | .updateMintLimit _ _ => true
  | _ => false

/-- What one successful instruction does to the pool records. -/
inductive RecordChange (findBump : Pubkey → UInt8) (p : Privileges Pubkey) (s s' : State) :
    Call → Prop
  | kept (c : Call) : c.setsRecord = false → s'.pools = s.pools → RecordChange findBump p s s' c
  | created (a : InitializeAccounts) (limit : UInt64) :
      a.pool = poolAddress a.outputTokenMint (findBump a.outputTokenMint) →
      s.pools a.pool = none →
      s' = s.setPool a.pool ⟨findBump a.outputTokenMint, a.inputTokenMint, a.outputTokenMint,
        a.delegateAuthority, limit⟩ →
      RecordChange findBump p s s' (.initializePool a limit)
  | transferred (a : TransferDelegateAuthorityAccounts) (r : LRTPool) :
      p.signer a.authority = true → s.pools a.pool = some r →
      r.delegateAuthority = a.authority →
      s' = s.setPool a.pool { r with delegateAuthority := a.newAuthority } →
      RecordChange findBump p s s' (.transferDelegateAuthority a)
  | limitSet (a : UpdateMintLimitAccounts) (limit : UInt64) (r : LRTPool) :
      p.signer a.authority = true → s.pools a.pool = some r →
      r.delegateAuthority = a.authority →
      s' = s.setPool a.pool { r with outputMintLimit := limit } →
      RecordChange findBump p s s' (.updateMintLimit a limit)

theorem execute_pools {rt : Runtime} {p : Privileges Pubkey} {c : Call} {s s' : State}
    (h : rt.execute p c s = .ok s') : RecordChange rt.findBump p s s' c := by
  cases c with
  | initializePool a limit =>
      obtain ⟨im, pv, om, hacc, rfl⟩ := (initializePool_eq_ok_iff ..).1 h
      exact .created a limit hacc.pool_eq hacc.pool_none rfl
  | deposit a amount =>
      obtain ⟨d, rfl⟩ := (execute_deposit_iff ..).1 h
      exact .kept _ rfl rfl
  | withdraw a amount =>
      obtain ⟨d, rfl⟩ := (execute_withdraw_iff ..).1 h
      exact .kept _ rfl rfl
  | withdrawDelegatedStake a amount =>
      obtain ⟨d, rfl⟩ := (execute_withdrawDelegatedStake_iff ..).1 h
      exact .kept _ rfl rfl
  | transferDelegateAuthority a =>
      obtain ⟨r, hsig, -, -, hr, -, hauth, rfl⟩ := (transferDelegateAuthority_eq_ok_iff ..).1 h
      exact .transferred a r hsig hr hauth rfl
  | delegate a amount =>
      obtain ⟨d, -, rfl⟩ := (execute_delegate_iff ..).1 h
      exact .kept _ rfl rfl
  | undelegate a amount =>
      obtain ⟨d, -, rfl⟩ := (execute_undelegate_iff ..).1 h
      exact .kept _ rfl rfl
  | updateMintLimit a limit =>
      obtain ⟨r, hsig, -, -, hr, -, hauth, rfl⟩ := (updateMintLimit_eq_ok_iff ..).1 h
      exact .limitSet a limit r hsig hr hauth rfl

section Attempt

variable {findBump : Pubkey → UInt8} {s s' : State}

theorem attempt_token_iff {p : Privileges Pubkey} {program : Pubkey} {ix : TokenIx Pubkey} :
    Action.attempt findBump (.token p program ix) s = .ok s' ↔
      isTokenInterface program = true ∧ (∀ k ∈ Action.allocated ix, p.signer k = true) ∧
        ∃ l, exec p program ix s.ledger = .ok l ∧ s' = { s with ledger := l } := by
  simp only [Action.attempt, bind_eq_ok_iff, require_eq_ok_iff, tokenCpi_eq_ok_iff, exists_const]

theorem attempt_create_iff {p : Privileges Pubkey} {key wallet tokenProgram mint : Pubkey} :
    Action.attempt findBump (.create p key wallet tokenProgram mint) s = .ok s' ↔
      p.writable key = true ∧ key = getAssociatedTokenAddress wallet tokenProgram mint ∧
        ∃ m, s.ledger.mints key = none ∧ s.ledger.accounts key = none ∧
          s.ledger.mints mint = some m ∧ m.program = tokenProgram ∧
          s' = { s with
            ledger := s.ledger.setAccount key (some (.fresh tokenProgram mint wallet)) } :=
  createAssociatedToken_eq_ok_iff ..

/-- Transactions that are not instructions of the program leave the pool records alone. -/
theorem attempt_pools {a : Action} (h : a.attempt findBump s = .ok s') :
    ((∀ programs p c, a ≠ .call programs p c) ∧ s'.pools = s.pools) ∨
      ∃ programs p c, a = .call programs p c ∧ RecordChange findBump p s s' c := by
  cases a with
  | call programs p c => exact Or.inr ⟨programs, p, c, rfl, execute_pools h⟩
  | token p program ix =>
      obtain ⟨-, -, l, -, rfl⟩ := attempt_token_iff.1 h
      exact Or.inl ⟨by simp, rfl⟩
  | create p key wallet tokenProgram mint =>
      obtain ⟨-, -, m, -, -, -, -, rfl⟩ := attempt_create_iff.1 h
      exact Or.inl ⟨by simp, rfl⟩

end Attempt

/-- Every record is stored at the address of its own output mint and bump, and the bump is the one
that the search finds. -/
def RecordsAtHome (findBump : Pubkey → UInt8) (s : State) : Prop :=
  ∀ k r, s.pools k = some r →
    k = poolAddress r.outputTokenMint r.bump ∧ r.bump = findBump r.outputTokenMint

theorem attempt_recordsAtHome {findBump : Pubkey → UInt8} {a : Action} {s s' : State}
    (hs : RecordsAtHome findBump s) (h : a.attempt findBump s = .ok s') :
    RecordsAtHome findBump s' := by
  rcases attempt_pools h with ⟨-, hpools⟩ | ⟨programs, p, c, rfl, hc⟩
  · intro k r hk
    exact hs k r (hpools ▸ hk)
  · intro k r hk
    cases hc with
    | kept _ _ hpools => exact hs k r (hpools ▸ hk)
    | created a limit hpool hnone hs' =>
        subst hs'
        rcases State.setPool_cases hk with ⟨rfl, rfl⟩ | ⟨-, hk⟩
        · exact ⟨hpool, rfl⟩
        · exact hs k r hk
    | transferred a r₀ hsig hr₀ hauth hs' =>
        subst hs'
        rcases State.setPool_cases hk with ⟨rfl, rfl⟩ | ⟨-, hk⟩
        · exact hs a.pool r₀ hr₀
        · exact hs k r hk
    | limitSet a limit r₀ hsig hr₀ hauth hs' =>
        subst hs'
        rcases State.setPool_cases hk with ⟨rfl, rfl⟩ | ⟨-, hk⟩
        · exact hs a.pool r₀ hr₀
        · exact hs k r hk

theorem run_recordsAtHome {findBump : Pubkey → UInt8} {s : State} (as : List Action)
    (hs : RecordsAtHome findBump s) : RecordsAtHome findBump (run findBump s as) :=
  Rollback.run_invariant (fun _ _ _ _ ht h => attempt_recordsAtHome ht h) hs

/-- No two records share an output mint. -/
theorem RecordsAtHome.key_unique {findBump : Pubkey → UInt8} {s : State}
    (hs : RecordsAtHome findBump s) {k k' : Pubkey} {r r' : LRTPool} (hk : s.pools k = some r)
    (hk' : s.pools k' = some r') (hmint : r.outputTokenMint = r'.outputTokenMint) : k = k' := by
  obtain ⟨hkey, hbump⟩ := hs k r hk
  obtain ⟨hkey', hbump'⟩ := hs k' r' hk'
  rw [hkey, hkey', hbump, hbump', hmint]

/-- A record keeps the fields that no instruction sets. -/
def RecordKept (s s' : State) : Prop :=
  ∀ k r, s.pools k = some r → ∃ r', s'.pools k = some r' ∧ r'.bump = r.bump ∧
    r'.inputTokenMint = r.inputTokenMint ∧ r'.outputTokenMint = r.outputTokenMint

theorem RecordKept.refl (s : State) : RecordKept s s :=
  fun _ r hr => ⟨r, hr, rfl, rfl, rfl⟩

theorem RecordKept.trans {s t u : State} (hst : RecordKept s t) (htu : RecordKept t u) :
    RecordKept s u := by
  intro k r hr
  obtain ⟨r₁, hr₁, hb₁, hi₁, ho₁⟩ := hst k r hr
  obtain ⟨r₂, hr₂, hb₂, hi₂, ho₂⟩ := htu k r₁ hr₁
  exact ⟨r₂, hr₂, hb₂.trans hb₁, hi₂.trans hi₁, ho₂.trans ho₁⟩

theorem recordKept_setPool {s : State} {k₀ : Pubkey} {r₀ r₁ : LRTPool} (h₀ : s.pools k₀ = some r₀)
    (hb : r₁.bump = r₀.bump) (hi : r₁.inputTokenMint = r₀.inputTokenMint)
    (ho : r₁.outputTokenMint = r₀.outputTokenMint) : RecordKept s (s.setPool k₀ r₁) := by
  intro k r hr
  rw [State.setPool_pools]
  split
  · next hk =>
      rw [hk, h₀] at hr
      obtain rfl := Option.some.inj hr
      exact ⟨r₁, rfl, hb, hi, ho⟩
  · exact ⟨r, hr, rfl, rfl, rfl⟩

theorem attempt_recordKept {findBump : Pubkey → UInt8} {a : Action} {s s' : State}
    (h : a.attempt findBump s = .ok s') : RecordKept s s' := by
  rcases attempt_pools h with ⟨-, hpools⟩ | ⟨programs, p, c, rfl, hc⟩
  · exact fun k r hr => ⟨r, hpools ▸ hr, rfl, rfl, rfl⟩
  · cases hc with
    | kept _ _ hpools => exact fun k r hr => ⟨r, hpools ▸ hr, rfl, rfl, rfl⟩
    | created a limit hpool hnone hs' =>
        intro k r hr
        -- no record was there, so none is overwritten
        have hne : k ≠ a.pool := by
          rintro rfl
          rw [hnone] at hr
          cases hr
        refine ⟨r, ?_, rfl, rfl, rfl⟩
        rw [hs', State.setPool_pools]
        simp only [hne, if_false, hr]
    | transferred a r₀ hsig hr₀ hauth hs' => exact hs' ▸ recordKept_setPool hr₀ rfl rfl rfl
    | limitSet a limit r₀ hsig hr₀ hauth hs' => exact hs' ▸ recordKept_setPool hr₀ rfl rfl rfl

theorem run_recordKept (findBump : Pubkey → UInt8) (s : State) (as : List Action) :
    RecordKept s (run findBump s as) :=
  Rollback.run_rel (I := fun _ => True) RecordKept.refl (fun _ _ _ => RecordKept.trans)
    (fun _ _ _ _ _ _ => trivial) (fun _ _ _ _ _ h => attempt_recordKept h) trivial

end AdraLrt
