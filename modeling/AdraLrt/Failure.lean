import AdraLrt.Execute

/-!
# Where errors come from

The account checks, the calls to the token program and the calls to an AVS program fail with errors
of their own, never with one of the program (`ProgramError.Foreign`). So an error of the program
says which guard of the handler failed, and everything before the guard went through. For a forced
exit that reports too little liquidity this means that the AVS had been called
(`liquidity_of_error`).
-/

set_option autoImplicit false

namespace AdraLrt

open TokenLedger Checked

/-- The error is not one of the program's own. -/
def ProgramError.Foreign (e : ProgramError) : Prop :=
  ∀ x, e ≠ .lrt x

section Checks

variable {p : Privileges Pubkey} {s : State} {k : Pubkey}

@[simp] theorem foreign_anchor (e : AnchorError) : (ProgramError.anchor e).Foreign := by
  intro x hx
  cases hx

@[simp] theorem foreign_cpi (e : ExecError) : (ProgramError.cpi e).Foreign := by
  intro x hx
  cases hx

@[simp] theorem foreign_calleeFailed : ProgramError.calleeFailed.Foreign := by
  intro x hx
  cases hx

@[simp] theorem foreign_privilegeEscalation : ProgramError.privilegeEscalation.Foreign := by
  intro x hx
  cases hx

@[simp] theorem foreign_invalidAccountData : ProgramError.invalidAccountData.Foreign := by
  intro x hx
  cases hx

@[simp] theorem foreign_invalidSeeds : ProgramError.invalidSeeds.Foreign := by
  intro x hx
  cases hx

theorem checkSigner_foreign : FailsWithin ProgramError.Foreign (checkSigner p k) := by
  simp [checkSigner]

theorem checkMut_foreign : FailsWithin ProgramError.Foreign (checkMut p k) := by
  simp [checkMut]

theorem checkProgram_foreign (program : Program) :
    FailsWithin ProgramError.Foreign (checkProgram k program) := by
  simp [checkProgram]

theorem checkTokenInterface_foreign : FailsWithin ProgramError.Foreign (checkTokenInterface k) := by
  simp [checkTokenInterface]

@[simp] theorem notOfToken_foreign : (s.notOfToken k).Foreign := by
  unfold State.notOfToken
  split
  · exact foreign_invalidAccountData
  · split
    · exact foreign_anchor _
    · exact foreign_anchor _

@[simp] theorem notAPool_foreign : (s.notAPool k).Foreign := by
  unfold State.notAPool
  split
  · exact foreign_anchor _
  · exact foreign_anchor _

theorem loadMint_foreign : FailsWithin ProgramError.Foreign (loadMint s k) := by
  simp [loadMint]

theorem loadToken_foreign : FailsWithin ProgramError.Foreign (loadToken s k) := by
  simp [loadToken]

theorem loadPool_foreign : FailsWithin ProgramError.Foreign (loadPool s k) := by
  simp [loadPool]

theorem FieldType.load_foreign (f : FieldType) :
    FailsWithin ProgramError.Foreign (f.load p s k) := by
  cases f with
  | signer => exact checkSigner_foreign
  | accountInfo => exact failsWithin_pure ()
  | mint => simp [FieldType.load, loadMint_foreign]
  | tokenAccount => simp [FieldType.load, loadToken_foreign]
  | pool => simp [FieldType.load, loadPool_foreign]
  | program q => exact checkProgram_foreign q
  | tokenInterface => exact checkTokenInterface_foreign

/-- Deserializing knows only errors of the framework, whatever the accounts. -/
theorem deserialize_foreign (fs : List FieldType) (ks : List Pubkey) :
    FailsWithin ProgramError.Foreign (deserialize p s fs ks) := by
  induction fs generalizing ks with
  | nil => exact failsWithin_pure ()
  | cons f fs ih =>
      cases ks with
      | nil => exact (failsWithin_error_iff _).2 (foreign_anchor _)
      | cons k ks =>
          exact (failsWithin_bind_iff _ _).2 ⟨f.load_foreign, fun _ _ => ih ks⟩

theorem checkMint_foreign (m : Loaded (Mint Pubkey)) (c : MintConstraint) :
    FailsWithin ProgramError.Foreign (checkMint m c) := by
  simp [checkMint]

theorem checkAssociatedToken_foreign (v : Loaded (TokenAccount Pubkey)) (mint authority : Pubkey)
    (tokenProgram : Option Pubkey) :
    FailsWithin ProgramError.Foreign (checkAssociatedToken v mint authority tokenProgram) := by
  simp [checkAssociatedToken]

theorem checkHasOne_foreign (recorded given : Pubkey) :
    FailsWithin ProgramError.Foreign (checkHasOne recorded given) := by
  simp [checkHasOne]

theorem checkAddress_foreign (expected : Pubkey) :
    FailsWithin ProgramError.Foreign (checkAddress k expected) := by
  simp [checkAddress]

theorem checkSeeds_foreign (mint : Pubkey) (bump : UInt8) :
    FailsWithin ProgramError.Foreign (checkSeeds k mint bump) := by
  simp [checkSeeds]

theorem tokenCpi_foreign (program : Pubkey) (ix : TokenIx Pubkey) :
    FailsWithin ProgramError.Foreign (tokenCpi p program ix s) := by
  simp [tokenCpi, failsWithin_mapError foreign_cpi]

theorem createAssociatedToken_foreign (key wallet tokenProgram mint : Pubkey) :
    FailsWithin ProgramError.Foreign (createAssociatedToken p key wallet tokenProgram mint s) := by
  have hcpi := failsWithin_mapError (P := ProgramError.Foreign) (f := .cpi ∘ .token)
    (fun e => foreign_cpi (.token e))
    (processInitializeAccount tokenProgram key mint wallet s.ledger)
  simp [createAssociatedToken, hcpi]

theorem initIfNeeded_foreign (payer mint authority tokenProgram : Pubkey) :
    FailsWithin ProgramError.Foreign (initIfNeeded p payer k mint authority tokenProgram s) := by
  unfold initIfNeeded findOrCreate
  cases s.ledger.accounts k with
  | some a => simp [checkMut_foreign]
  | none => simp [checkMut_foreign, createAssociatedToken_foreign]

end Checks

section ForcedExit

variable {rt : Runtime} {p : Privileges Pubkey} {s : State}

theorem WithdrawStake.tryAccounts_foreign (a : WithdrawStakeAccounts) :
    FailsWithin ProgramError.Foreign (tryAccounts p a s) := by
  simp [tryAccounts, checkSigner_foreign, checkMut_foreign, checkProgram_foreign,
    checkTokenInterface_foreign, loadMint_foreign, loadToken_foreign, loadPool_foreign,
    checkMint_foreign, checkAssociatedToken_foreign, checkHasOne_foreign, checkAddress_foreign,
    checkSeeds_foreign, initIfNeeded_foreign]

theorem Runtime.callProgram_foreign (ix : Instruction) :
    FailsWithin ProgramError.Foreign (rt.callProgram ix s) := by
  simp [Runtime.callProgram, failsWithin_mapError foreign_cpi]

/-- Not even the program itself fails with an error of its own when it is called in place of an AVS
program. -/
theorem Runtime.invoke_foreign (depth : Nat) (x : AvsAccounts) (avsProgram : Pubkey)
    {name : InstructionName} (hname : name = .delegate ∨ name = .undelegate) (amount : UInt64) :
    FailsWithin ProgramError.Foreign
      (rt.invoke (depth + 1) p (avsInstruction avsProgram name x amount) s) := by
  simp only [Runtime.invoke, failsWithin_bind_iff, failsWithin_require_iff,
    foreign_privilegeEscalation, implies_true, true_and]
  intro _ _
  cases avsProgram with
  | program q =>
      cases q with
      | adraLrt =>
          -- the list is two accounts short, so the error is one of the deserialization
          intro e he
          have hshort : (x.metas.map (·.pubkey)).length < name.fields.length := by
            rcases hname with rfl | rfl
            · exact Nat.lt_of_sub_pos (Nat.succ_pos 1)
            · exact Nat.lt_of_sub_pos (Nat.succ_pos 1)
          obtain ⟨e', hload, herror⟩ := handle_of_short ⟨rt.findBump,
            calleePrivileges programId x.metas, rt.invoke depth⟩ amount s hshort
          obtain rfl : e' = e := Except.error.inj (herror.symm.trans he)
          exact deserialize_foreign _ _ _ hload
      | system => exact (failsWithin_error_iff _).2 foreign_calleeFailed
      | token => exact (failsWithin_error_iff _).2 foreign_calleeFailed
      | token2022 => exact (failsWithin_error_iff _).2 foreign_calleeFailed
      | associatedToken => exact (failsWithin_error_iff _).2 foreign_calleeFailed
  | keypair n => exact rt.callProgram_foreign _
  | programDerived q n => exact rt.callProgram_foreign _
  | associatedToken w t m => exact rt.callProgram_foreign _
  | lrtPool m b => exact rt.callProgram_foreign _

/-- Reloading, the call to the token program and the call to the AVS leave one guard for the error.
-/
theorem WithdrawStake.unstakeWith_eq_error {convert : UInt64 → UInt64} {cx : Cx}
    {self : WithdrawStake} {amount : UInt64} {e : LRTPoolError}
    (h : unstakeWith convert cx self amount s = .error (.lrt e)) :
    ∃ v, s.ledger.accounts self.poolInputTokenVault.key = some v ∧ v.amount < amount.toNat := by
  simp only [unstakeWith, reloadToken, bind_eq_error_iff, loadToken_eq_ok_iff,
    require_eq_error_iff, require_eq_ok_iff] at h
  rcases h with h | ⟨⟨k, v⟩, ⟨-, hv, -⟩, ⟨hguard, -⟩ | ⟨-, -, h | ⟨s', -, h⟩⟩⟩
  · exact (loadToken_foreign _ h e rfl).elim
  · exact ⟨v, hv, Nat.lt_of_not_le hguard⟩
  · exact (tokenCpi_foreign _ _ _ h e rfl).elim
  · cases h

/-- The undelegation of a forced exit has one error of its own. -/
theorem WithdrawStake.undelegate_eq_error {self : WithdrawStake} {amount : UInt64}
    {e : LRTPoolError} (h : undelegate (rt.cx p) self amount s = .error (.lrt e)) :
    e = .insufficientAvsTokenForUndelegate := by
  simp only [undelegate, reloadToken, bind_eq_error_iff, require_eq_error_iff] at h
  rcases h with h | ⟨w, -, ⟨-, h⟩ | ⟨-, -, h | ⟨s', -, h⟩⟩⟩
  · exact (loadToken_foreign _ h e rfl).elim
  · cases h
    rfl
  · exact (rt.invoke_foreign _ _ _ (Or.inr rfl) _ _ h e rfl).elim
  · cases h

/-- A forced exit that reports too little liquidity has undelegated, and the vault holds less than
that. -/
theorem liquidity_of_error {convert : UInt64 → UInt64} {a : WithdrawStakeAccounts} {amount : UInt64}
    (h : withdrawDelegatedStakeWith convert (rt.cx p) a amount s =
      .error (.lrt .insufficientSSOLFundsForWithdraw)) :
    ∃ im vault om uo r avsMint avsInput poolAvs created start burned undelegated cs v,
      WithdrawStake.Accepted p a s im vault om uo r avsMint avsInput poolAvs ∧
      initIfNeeded p a.signer a.signerInputTokenVault a.inputTokenMint a.signer a.tokenProgram
        s = .ok (created, start) ∧
      exec p a.tokenProgram (.burn a.signerOutputTokenVault a.outputTokenMint a.signer amount.toNat)
        start.ledger = .ok burned ∧
      AvsRun rt.programs a.avsAccounts a.avsProgram .undelegate (convert amount)
        { s with ledger := burned } undelegated cs ∧
      undelegated.accounts a.poolInputTokenVault = some v ∧ v.amount < (convert amount).toNat := by
  simp only [withdrawDelegatedStakeWith, bind_eq_error_iff, Prod.exists,
    WithdrawStake.tryAccounts_eq_ok_iff, WithdrawStake.undelegate_eq_ok_iff,
    WithdrawStake.burnOutputToken, tokenCpi_eq_ok_iff] at h
  rcases h with h | ⟨self, start, ⟨im, vault, om, uo, r, am, av, pa, created, hacc, hinit, rfl⟩, h⟩
  · exact (WithdrawStake.tryAccounts_foreign a _ h _ rfl).elim
  rcases h with h | ⟨s₁, ⟨burned, hburn, rfl⟩, h⟩
  · exact (tokenCpi_foreign _ _ _ h _ rfl).elim
  rcases h with h | ⟨self', s₂, ⟨w, hw, hwp, hguard, hs₂, rfl⟩, h⟩
  · cases WithdrawStake.undelegate_eq_error h
  rcases h with h | ⟨self', s₃, -, h⟩
  swap
  · cases h
  obtain ⟨v, hv, hlt⟩ := WithdrawStake.unstakeWith_eq_error h
  obtain ⟨-, cs, undelegated, hrun, rfl⟩ := (rt.invoke_eq_ok_iff _ _ _ _ (Or.inr rfl) _ _ _).1 hs₂
  have hstart : ({ start with ledger := burned } : State) = { s with ledger := burned } := by
    simp only [initIfNeeded_pools hinit]
  rw [hstart] at hrun
  exact ⟨im, vault, om, uo, r, am, av, pa, created, start, burned, undelegated, cs, v, hacc, hinit,
    hburn, hrun, hv, hlt⟩

end ForcedExit

end AdraLrt
