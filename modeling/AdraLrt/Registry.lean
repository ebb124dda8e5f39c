import AdraLrt.Exchange

/-!
# AVS programs with a registry

Programs that serve a fixed set of AVSs. Each AVS has an address that its program derives, takes in
one token under one token program, and has a token mint of its own. A call is served when its
accounts are those of a registered AVS, and then the program runs the exchange and nothing else; any
other call fails. The programs of a registry are honest (`Registry.honest`), so what is proved for
honest programs holds of programs that exist.
-/

set_option autoImplicit false

namespace AdraLrt

open TokenLedger Checked

/-- An AVS: the program that derives its address from the seed, and the token that it takes in. -/
structure Avs where
  program : Pubkey
  seed : Nat
  inputTokenMint : Pubkey
  tokenProgram : Pubkey
deriving DecidableEq, Repr

/-- The address of the AVS. -/
def Avs.address (v : Avs) : Pubkey := .programDerived v.program v.seed

theorem Avs.controls_address (v : Avs) : v.program.controls v.address = true :=
  decide_eq_true rfl

/-- Where the AVS keeps the tokens that it took in. -/
def Avs.vault (v : Avs) : Pubkey :=
  getAssociatedTokenAddress v.address v.tokenProgram v.inputTokenMint

/-- AVSs by their token mints. No two have one address. -/
structure Registry where
  mints : Finset Pubkey
  avs : Pubkey → Avs
  external : ∀ m ∈ mints, ∀ q, (avs m).program ≠ .program q
  address_inj : ∀ m ∈ mints, ∀ m' ∈ mints, (avs m).address = (avs m').address → m = m'

/-- The addresses of the AVSs. -/
def Registry.addresses (R : Registry) : Set Pubkey :=
  {k | ∃ m ∈ R.mints, (R.avs m).address = k}

/-- The accounts of a call, read off the list in the order of the instruction. -/
def AvsAccounts.ofMetas : List (AccountMeta Pubkey) → Option AvsAccounts
  | [pool, avs, avsTokenMint, avsInput, inputMint, poolInput, poolAvs, token, associated, system] =>
      some ⟨pool.pubkey, avs.pubkey, avsTokenMint.pubkey, avsInput.pubkey, inputMint.pubkey,
        poolInput.pubkey, poolAvs.pubkey, token.pubkey, associated.pubkey, system.pubkey⟩
  | _ => none

@[simp] theorem AvsAccounts.ofMetas_metas (x : AvsAccounts) : ofMetas x.metas = some x := rfl

namespace Registry

/-- The accounts of the call to `program` are those of a registered AVS. -/
def Serves (R : Registry) (program : Pubkey) (x : AvsAccounts) : Prop :=
  x.avsTokenMint ∈ R.mints ∧ (R.avs x.avsTokenMint).program = program ∧
    (R.avs x.avsTokenMint).address = x.avs ∧
    (R.avs x.avsTokenMint).inputTokenMint = x.inputTokenMint ∧
    (R.avs x.avsTokenMint).tokenProgram = x.tokenProgram ∧
    (R.avs x.avsTokenMint).vault = x.avsInputTokenVault

instance (R : Registry) (program : Pubkey) (x : AvsAccounts) : Decidable (R.Serves program x) :=
  inferInstanceAs (Decidable (_ ∧ _))

/-- The programs of the registry. -/
def programs (R : Registry) : Programs := fun program ix _ =>
  match AvsAccounts.ofMetas ix.accounts with
  | some x =>
    if R.Serves program x then some (x.exchange ix.amount.toNat ix.discriminator.name) else none
  | none => none

section Calls

variable {R : Registry} {x : AvsAccounts} {avsProgram : Pubkey} {name : InstructionName}
  {amount : UInt64} {s : State} {l : Ledger Pubkey}

theorem programs_eq_some_iff {cs : List (Pubkey × TokenIx Pubkey)} :
    R.programs avsProgram (avsInstruction avsProgram name x amount) s = some cs ↔
      R.Serves avsProgram x ∧ x.exchange amount.toNat name = cs := by
  simp only [programs, avsInstruction, AvsAccounts.ofMetas_metas, sighash]
  split
  · next h => simp [h]
  · next h => simp [h]

/-- What a call that succeeds did. -/
theorem serves_of_avsRun {cs : List (Pubkey × TokenIx Pubkey)}
    (h : AvsRun R.programs x avsProgram name amount s l cs) :
    R.Serves avsProgram x ∧
      execAll (x.privileges avsProgram) (x.exchange amount.toNat name) s.ledger = .ok l := by
  obtain ⟨hserves, rfl⟩ := programs_eq_some_iff.1 h.programs_eq
  exact ⟨hserves, h.execAll_eq⟩

/-- A call of a registered AVS succeeds when the token program carries the exchange out. -/
theorem avsRun_of_serves (hserves : R.Serves avsProgram x)
    (htp : isTokenInterface x.tokenProgram = true)
    (h : execAll (x.privileges avsProgram) (x.exchange amount.toNat name) s.ledger = .ok l) :
    AvsRun R.programs x avsProgram name amount s l (x.exchange amount.toNat name) where
  external := by
    obtain ⟨hmem, rfl, -⟩ := hserves
    exact R.external _ hmem
  programs_eq := programs_eq_some_iff.2 ⟨hserves, rfl⟩
  tokenPrograms c hc := by
    have hprogram : c.1 = x.tokenProgram := by
      cases name with
      | delegate =>
          simp only [AvsAccounts.exchange, List.mem_cons, List.not_mem_nil, or_false] at hc
          rcases hc with rfl | rfl
          · rfl
          · rfl
      | undelegate =>
          simp only [AvsAccounts.exchange, List.mem_cons, List.not_mem_nil, or_false] at hc
          rcases hc with rfl | rfl
          · rfl
          · rfl
      | _ => cases hc
    rw [hprogram]
    exact ⟨htp, by simp [AvsAccounts.keys]⟩
  execAll_eq := h

/-- The programs of a registry are honest. -/
theorem honest (R : Registry) : HonestPrograms R.addresses R.mints R.programs := by
  intro x avsProgram name amount s l cs hrun
  obtain ⟨⟨hmem, -, haddress, -⟩, hex⟩ := serves_of_avsRun hrun
  exact ⟨haddress ▸ rfl, ⟨_, hmem, haddress⟩, hmem, hex⟩

end Calls

end Registry

end AdraLrt
