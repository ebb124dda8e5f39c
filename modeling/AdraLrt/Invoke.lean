import AdraLrt.Program

/-!
# Calls to other programs

How the runtime carries out `invoke_signed`. The callee gets the accounts of the instruction with
the flags they have there, and may add signatures of addresses derived from its own id. What another
program does with them is a parameter (`Runtime.programs`): for each call, the list of token-program
instructions that it runs, or a failure. Nothing is assumed about it; each of the instructions must
still be admitted by the callee's privileges.

The only program that may be entered twice is the caller itself, directly. The built-in programs do
not know the discriminators of this one and fail.
-/

set_option autoImplicit false

namespace AdraLrt

open TokenLedger Checked

/-- The privileges of a called program. -/
def calleePrivileges (program : Pubkey) (metas : List (AccountMeta Pubkey)) :
    Privileges Pubkey where
  available k := metas.any fun m => m.pubkey = k
  signer k := metas.any fun m => m.pubkey = k && (m.isSigner || program.controls k)
  writable k := metas.any fun m => m.pubkey = k && m.isWritable

/-- What the programs outside the repository do when they are called: the token-program instructions
they run, or `none` for a failure. -/
abbrev Programs : Type :=
  Pubkey → Instruction → State → Option (List (Pubkey × TokenIx Pubkey))

/-- The bump search, and the programs outside the repository. -/
structure Runtime where
  findBump : Pubkey → UInt8
  programs : Programs

namespace Runtime

/-- A call to a program outside the repository. -/
def callProgram (rt : Runtime) (ix : Instruction) (s : State) : Except ProgramError State := do
  -- the answer may depend on the whole state, but it is carried out on the accounts handed over
  let cs ← orError .calleeFailed (rt.programs ix.programId ix s)
  let p := calleePrivileges ix.programId ix.accounts
  require (∀ c ∈ cs, isTokenInterface c.1 = true ∧ p.available c.1 = true) .calleeFailed
  let l ← mapError .cpi (execAll p cs s.ledger)
  pure { s with ledger := l }

/-- `invoke_signed`, where at most `depth` further calls may be nested. -/
def invoke (rt : Runtime) : Nat → Privileges Pubkey → Instruction → State →
    Except ProgramError State
  | 0, _, _, _ => .error .callDepth
  | depth + 1, p, ix, s => do
    require (∀ m ∈ ix.accounts, p.admits m = true) .privilegeEscalation
    match ix.programId with
    -- a program may call itself, and the new instance parses the account list afresh
    | .program .adraLrt =>
      processInstruction
        ⟨rt.findBump, calleePrivileges programId ix.accounts, rt.invoke depth⟩ ix s
    | .program _ => .error .calleeFailed
    | _ => rt.callProgram ix s

/-- Calls nest four deep below the instruction of a transaction. -/
def maxDepth : Nat := 4

/-- The environment of an instruction of a transaction with the privileges `p`. -/
def cx (rt : Runtime) (p : Privileges Pubkey) : Cx := ⟨rt.findBump, p, rt.invoke maxDepth⟩

/-- Run an instruction of a transaction. -/
def execute (rt : Runtime) (p : Privileges Pubkey) (call : Call) (s : State) :
    Except ProgramError State :=
  call.run (rt.cx p) s

end Runtime

/-! ## What a called AVS program can do -/

/-- The privileges of an AVS program during a call. -/
def AvsAccounts.privileges (x : AvsAccounts) (avsProgram : Pubkey) : Privileges Pubkey :=
  calleePrivileges avsProgram x.metas

/-- The accounts that are handed over writable. -/
def AvsAccounts.writable (x : AvsAccounts) : List Pubkey :=
  [x.pool, x.avs, x.avsTokenMint, x.avsInputTokenVault, x.inputTokenMint, x.poolInputTokenVault,
    x.poolAvsTokenVault]

/-- All accounts that are handed over. -/
def AvsAccounts.keys (x : AvsAccounts) : List Pubkey :=
  x.writable ++ [x.tokenProgram, x.associatedTokenProgram, x.systemProgram]

section Privileges

variable (x : AvsAccounts) (avsProgram k : Pubkey)

theorem AvsAccounts.privileges_available :
    (x.privileges avsProgram).available k = true ↔ k ∈ x.keys := by
  simp [AvsAccounts.privileges, calleePrivileges, AvsAccounts.metas, AvsAccounts.keys,
    AvsAccounts.writable, accountMeta, readonlyMeta, eq_comm (b := k)]

theorem AvsAccounts.privileges_writable :
    (x.privileges avsProgram).writable k = true ↔ k ∈ x.writable := by
  simp [AvsAccounts.privileges, calleePrivileges, AvsAccounts.metas, AvsAccounts.writable,
    accountMeta, readonlyMeta, eq_comm (b := k)]

theorem calleePrivileges_signer (metas : List (AccountMeta Pubkey)) :
    (calleePrivileges avsProgram metas).signer k = true ↔
      (∃ m ∈ metas, m.pubkey = k ∧ m.isSigner = true) ∨
        ((calleePrivileges avsProgram metas).available k = true ∧
          avsProgram.controls k = true) := by
  simp only [calleePrivileges, List.any_eq_true, Bool.and_eq_true, Bool.or_eq_true,
    decide_eq_true_eq]
  constructor
  · rintro ⟨m, hm, hk, hs | hc⟩
    · exact Or.inl ⟨m, hm, hk, hs⟩
    · exact Or.inr ⟨⟨m, hm, hk⟩, hc⟩
  · rintro (⟨m, hm, hk, hs⟩ | ⟨⟨m, hm, hk⟩, hc⟩)
    · exact ⟨m, hm, hk, Or.inl hs⟩
    · exact ⟨m, hm, hk, Or.inr hc⟩

/-- The pool is the only account whose signature is handed over. -/
theorem AvsAccounts.privileges_signer :
    (x.privileges avsProgram).signer k = true ↔
      k = x.pool ∨ (k ∈ x.keys ∧ avsProgram.controls k = true) := by
  rw [AvsAccounts.privileges, calleePrivileges_signer, ← AvsAccounts.privileges,
    AvsAccounts.privileges_available]
  simp [AvsAccounts.metas, accountMeta, readonlyMeta, eq_comm (b := k)]

/-- A signer of a called program is among its accounts. -/
theorem AvsAccounts.available_of_signer {x : AvsAccounts} {avsProgram k : Pubkey}
    (h : (x.privileges avsProgram).signer k = true) :
    (x.privileges avsProgram).available k = true := by
  rw [AvsAccounts.privileges_available]
  rcases (x.privileges_signer avsProgram k).1 h with rfl | ⟨hk, -⟩
  · simp [AvsAccounts.keys, AvsAccounts.writable]
  · exact hk

theorem AvsAccounts.available_of_mem_writable {x : AvsAccounts} {avsProgram k : Pubkey}
    (h : k ∈ x.writable) : (x.privileges avsProgram).available k = true ∧
      (x.privileges avsProgram).writable k = true := by
  rw [AvsAccounts.privileges_available, AvsAccounts.privileges_writable]
  exact ⟨List.mem_append_left _ h, h⟩

theorem AvsAccounts.signer_pool (x : AvsAccounts) (avsProgram : Pubkey) :
    (x.privileges avsProgram).signer x.pool = true :=
  (x.privileges_signer avsProgram x.pool).2 (Or.inl rfl)

theorem AvsAccounts.tokenProgram_mem_keys (x : AvsAccounts) : x.tokenProgram ∈ x.keys := by
  simp [AvsAccounts.keys]

/-- The address of an AVS signs in the calls of its own program. -/
theorem AvsAccounts.signer_avs {x : AvsAccounts} {avsProgram : Pubkey}
    (h : avsProgram.controls x.avs = true) : (x.privileges avsProgram).signer x.avs = true :=
  (x.privileges_signer avsProgram x.avs).2
    (Or.inr ⟨by simp [AvsAccounts.keys, AvsAccounts.writable], h⟩)

end Privileges

/-- The token-program instructions that an AVS program ran during a call. -/
structure AvsRun (programs : Programs) (x : AvsAccounts) (avsProgram : Pubkey)
    (name : InstructionName) (amount : UInt64) (s : State) (l : Ledger Pubkey)
    (cs : List (Pubkey × TokenIx Pubkey)) : Prop where
  external : ∀ q, avsProgram ≠ .program q
  programs_eq : programs avsProgram (avsInstruction avsProgram name x amount) s = some cs
  tokenPrograms : ∀ c ∈ cs, isTokenInterface c.1 = true ∧ c.1 ∈ x.keys
  execAll_eq : execAll (x.privileges avsProgram) cs s.ledger = .ok l

theorem Runtime.callProgram_eq_ok_iff (rt : Runtime) (ix : Instruction) (s s' : State) :
    rt.callProgram ix s = .ok s' ↔
      ∃ cs l, rt.programs ix.programId ix s = some cs ∧
        (∀ c ∈ cs, isTokenInterface c.1 = true ∧
          (calleePrivileges ix.programId ix.accounts).available c.1 = true) ∧
        execAll (calleePrivileges ix.programId ix.accounts) cs s.ledger = .ok l ∧
        s' = { s with ledger := l } := by
  simp only [Runtime.callProgram, bind_eq_ok_iff, orError_eq_ok_iff, require_eq_ok_iff,
    mapError_eq_ok_iff, pure_eq_ok_iff]
  constructor
  · rintro ⟨cs, hcs, _, htp, l, hl, rfl⟩
    exact ⟨cs, l, hcs, htp, hl, rfl⟩
  · rintro ⟨cs, l, hcs, htp, hl, rfl⟩
    exact ⟨cs, hcs, (), htp, l, hl, rfl⟩

/-- A call to an AVS program succeeds exactly when the program is not a built-in one and its
token-program instructions run to the end; the pool records are not touched. -/
theorem Runtime.invoke_eq_ok_iff (rt : Runtime) (depth : Nat) (p : Privileges Pubkey)
    (x : AvsAccounts) (avsProgram : Pubkey) {name : InstructionName}
    (hname : name = .delegate ∨ name = .undelegate) (amount : UInt64) (s s' : State) :
    rt.invoke (depth + 1) p (avsInstruction avsProgram name x amount) s = .ok s' ↔
      (∀ m ∈ x.metas, p.admits m = true) ∧
        ∃ cs l, AvsRun rt.programs x avsProgram name amount s l cs ∧
          s' = { s with ledger := l } := by
  have hrun : (∀ q, avsProgram ≠ .program q) →
      (rt.callProgram (avsInstruction avsProgram name x amount) s = .ok s' ↔
        ∃ cs l, AvsRun rt.programs x avsProgram name amount s l cs ∧
          s' = { s with ledger := l }) := by
    intro hext
    rw [Runtime.callProgram_eq_ok_iff]
    constructor
    · rintro ⟨cs, l, hcs, htp, hl, rfl⟩
      -- available to the callee is what is on the list
      have htp' : ∀ c ∈ cs, isTokenInterface c.1 = true ∧ c.1 ∈ x.keys := by
        intro c hc
        exact ⟨(htp c hc).1, (x.privileges_available avsProgram c.1).1 (htp c hc).2⟩
      exact ⟨cs, l, ⟨hext, hcs, htp', hl⟩, rfl⟩
    · rintro ⟨cs, l, h, rfl⟩
      refine ⟨cs, l, h.programs_eq, ?_, h.execAll_eq, rfl⟩
      intro c hc
      exact ⟨(h.tokenPrograms c hc).1,
        (x.privileges_available avsProgram c.1).2 (h.tokenPrograms c hc).2⟩
  simp only [Runtime.invoke, bind_eq_ok_iff, require_eq_ok_iff, exists_const]
  refine and_congr Iff.rfl ?_
  cases avsProgram with
  | program q =>
      have hno : ¬ ∃ cs l, AvsRun rt.programs x (.program q) name amount s l cs ∧
          s' = { s with ledger := l } := by
        rintro ⟨cs, l, h, -⟩
        exact h.external q rfl
      cases q with
      | adraLrt =>
          -- the pool program would run `delegate` on too few accounts
          simp only [hno, iff_false, avsInstruction]
          exact processInstruction_avsInstruction _ _ _ hname _ _ _ _
      | system => simpa [avsInstruction] using hno
      | token => simpa [avsInstruction] using hno
      | token2022 => simpa [avsInstruction] using hno
      | associatedToken => simpa [avsInstruction] using hno
  | keypair n => exact hrun (by simp)
  | programDerived q n => exact hrun (by simp)
  | associatedToken w t m => exact hrun (by simp)
  | lrtPool m b => exact hrun (by simp)

end AdraLrt
