import AdraLrt.Client
import AdraLrt.Invariant
import AdraLrt.Registry
import AdraLrt.TokenLedger.Finite

/-!
# Finite deployments

A deployment given by the lists of its mints and accounts. Whether its ledger is sound can be
decided entry by entry (`ledgerSound_ofLists`). The small deployment at the end, with one user, one
pool, one AVS and an address of a multisig program as the delegate authority, is where the
conditions of the general results are tried out.
-/

set_option autoImplicit false

namespace AdraLrt

open TokenLedger Checked

/-- The wallet, the token program and the mint of an associated address. -/
def Pubkey.associatedParts : Pubkey → Option (Pubkey × Pubkey × Pubkey)
  | associatedToken wallet tokenProgram mint => some (wallet, tokenProgram, mint)
  | _ => none

/-- What a sound ledger asks of one account, given the mints. -/
def AccountEntrySound (mints : List (Pubkey × Mint Pubkey)) (e : Pubkey × TokenAccount Pubkey) :
    Prop :=
  (∃ m ∈ mints.lookup e.2.mint, m.program = e.2.program) ∧
    ∀ x ∈ e.1.associatedParts, e.2.mint = x.2.2 ∧ e.2.program = x.2.1 ∧
      (x.1.isPool = true → e.2.Held x.1)

/-- What it asks of one mint. -/
def MintEntrySound (e : Pubkey × Mint Pubkey) : Prop :=
  e.1.associatedParts = none ∧ (e.2.program = .program .token → e.2.transferFee = none)

instance (mints : List (Pubkey × Mint Pubkey)) (e : Pubkey × TokenAccount Pubkey) :
    Decidable (AccountEntrySound mints e) :=
  inferInstanceAs (Decidable (_ ∧ _))

instance (e : Pubkey × Mint Pubkey) : Decidable (MintEntrySound e) :=
  inferInstanceAs (Decidable (_ ∧ _))

section Sound

variable {mints : List (Pubkey × Mint Pubkey)} {accounts : List (Pubkey × TokenAccount Pubkey)}

theorem ledgerSound_ofLists (hc : Covered mints accounts)
    (ha : ∀ e ∈ accounts, AccountEntrySound mints e) (hm : ∀ e ∈ mints, MintEntrySound e) :
    LedgerSound (Ledger.ofLists mints accounts) where
  conserved := conserved_ofLists hc
  mint_some k a h := by
    obtain ⟨⟨x, hx, hp⟩, -⟩ := ha _ (mem_of_account h)
    exact ⟨x, hx, hp⟩
  associated wallet tokenProgram mint a h := ((ha _ (mem_of_account h)).2 _ rfl).1
  program wallet tokenProgram mint a h := ((ha _ (mem_of_account h)).2 _ rfl).2.1
  held wallet tokenProgram mint a hpool h := ((ha _ (mem_of_account h)).2 _ rfl).2.2 hpool
  no_mint wallet tokenProgram mint := by
    rw [Option.eq_none_iff_forall_ne_some]
    intro x hx
    have hparts := (hm _ (mem_of_mint hx)).1
    cases hparts
  legacy m x hx := (hm _ (mem_of_mint hx)).2

/-- Everybody has its associated accounts in its own hands if all entries say so. -/
theorem inOwnHands_ofLists (h : ∀ e ∈ accounts, ∀ x ∈ e.1.associatedParts, e.2.Held x.1)
    (ks : Set Pubkey) : InOwnHands ks (Ledger.ofLists mints accounts) :=
  fun _ _ _ _ _ ha => h _ (mem_of_account ha) _ rfl

theorem apart_ofLists (h : ∀ e ∈ mints, accounts.lookup e.1 = none) :
    (Ledger.ofLists mints accounts).Apart :=
  fun _ _ hx => h _ (mem_of_mint hx)

theorem feeFree_ofLists (h : ∀ e ∈ mints, e.2.transferFee = none) :
    (Ledger.ofLists mints accounts).FeeFree :=
  fun _ _ hx => h _ (mem_of_mint hx)

theorem program_ofLists {program : Pubkey} (h : ∀ e ∈ mints, e.2.program = program) :
    ∀ m x, (Ledger.ofLists mints accounts).mints m = some x → x.program = program :=
  fun _ _ hx => h _ (mem_of_mint hx)

end Sound

/-! ## A small deployment -/

namespace Sample

def user : Pubkey := .keypair 1
def multisig : Pubkey := .keypair 21
def authority : Pubkey := .programDerived multisig 0
def inputMint : Pubkey := .keypair 10
def outputMint : Pubkey := .keypair 11
def avsMint : Pubkey := .keypair 12
def avsProgram : Pubkey := .keypair 20
def avs : Pubkey := .programDerived avsProgram 0
def pool : Pubkey := poolAddress outputMint 255
def tokenProgram : Pubkey := .program .token

def findBump : Pubkey → UInt8 := fun _ => 255

/-- The record of the pool under a mint limit. -/
def record (limit : UInt64) : LRTPool := ⟨255, inputMint, outputMint, authority, limit⟩

/-- A mint with one holder of both authorities. -/
def mintOf (holder : Pubkey) (supply : Nat) : Mint Pubkey :=
  ⟨some holder, some holder, supply, 9, tokenProgram, none⟩

/-- The associated account of a wallet, with a balance. -/
def account (wallet mint : Pubkey) (amount : Nat) : Pubkey × TokenAccount Pubkey :=
  (getAssociatedTokenAddress wallet tokenProgram mint,
    { TokenAccount.fresh tokenProgram mint wallet with amount := amount })

/-- One AVS. -/
def registry : Registry where
  mints := {avsMint}
  avs _ := ⟨avsProgram, 0, inputMint, tokenProgram⟩
  external _ _ q := by simp [avsProgram]
  address_inj m hm m' hm' _ := by
    rw [Finset.mem_singleton.1 hm, Finset.mem_singleton.1 hm']

/-- Before the pool: the user has a hundred input tokens. -/
def ledger : Ledger Pubkey :=
  .ofLists
    [(inputMint, mintOf authority 100), (outputMint, mintOf pool 0), (avsMint, mintOf avs 0)]
    [account user inputMint 100, account pool inputMint 0, account avs inputMint 0]

/-- The user has deposited everything, the pool has delegated sixty tokens, and somebody has created
an account of the pool for its own output token. -/
def operating : State where
  ledger := .ofLists
    [(inputMint, mintOf authority 100), (outputMint, mintOf pool 100), (avsMint, mintOf avs 60)]
    [account user inputMint 0, account user outputMint 100, account pool inputMint 40,
      account pool outputMint 0, account pool avsMint 60, account avs inputMint 60]
  pools k := if k = pool then some (record 1000) else none

/-- The accounts of a forced exit of the user at the AVS. -/
def exit : WithdrawStakeAccounts :=
  .derived user tokenProgram pool (record 1000) avs avsMint avsProgram

/-- The accounts of a delegation to the AVS. -/
def delegation : DelegateAccounts :=
  .derived tokenProgram pool (record 1000) avs avsMint avsProgram authority

/-- A transaction signed by `k` in which every account is writable. -/
def signedBy (k : Pubkey) : Privileges Pubkey where
  available _ := true
  signer j := j = k
  writable _ := true

/-- The accounts of the initialization. -/
def opening : InitializeAccounts :=
  .derived tokenProgram pool authority authority inputMint outputMint

/-- The authority initializes the pool. -/
def initialization (limit : UInt64) : Action :=
  .call registry.programs (signedBy authority) (.initializePool opening limit)

/-- The user deposits. -/
def deposit (amount : UInt64) : Action :=
  .call registry.programs (signedBy user)
    (.deposit (.derived user tokenProgram pool (record 1000)) amount)

/-- The user withdraws. -/
def withdrawal (amount : UInt64) : Action :=
  .call registry.programs (signedBy user)
    (.withdraw (.derived user tokenProgram pool (record 1000)) amount)

/-- The authority delegates. -/
def delegate (amount : UInt64) : Action :=
  .call registry.programs (signedBy authority) (.delegate delegation amount)

/-- The user exits at the AVS. -/
def forcedExit (amount : UInt64) : Action :=
  .call registry.programs (signedBy user) (.withdrawDelegatedStake exit amount)

/-- The user gives input tokens to the pool. -/
def donation (amount : Nat) : Action :=
  .token (signedBy user) tokenProgram
    (.transfer (getAssociatedTokenAddress user tokenProgram inputMint)
      (getAssociatedTokenAddress pool tokenProgram inputMint) user amount none)

/-- The user burns output tokens of its own. -/
def burning (amount : Nat) : Action :=
  .token (signedBy user) tokenProgram
    (.burn (getAssociatedTokenAddress user tokenProgram outputMint) outputMint user amount)

theorem signedBy_outside {k : Pubkey} (hk : k.isReserved = false) :
    ∀ j, (signedBy k).signer j = true → j.isReserved = false := by
  intro j hj
  obtain rfl : j = k := by simpa [signedBy] using hj
  exact hk

theorem signedBy_apart {k : Pubkey} {ks : Set Pubkey} (hk : k ∉ ks) :
    ∀ j ∈ ks, (signedBy k).signer j = false := by
  intro j hj
  simp only [signedBy, decide_eq_false_iff_not]
  rintro rfl
  exact hk hj

theorem user_apart : user ∉ registry.addresses := by
  rintro ⟨m, -, h⟩
  cases h

theorem authority_apart : authority ∉ registry.addresses := by
  rintro ⟨m, -, h⟩
  cases h

/-- A history of the pool: it ends with fifteen tokens in the vault, twenty at the AVS and
twenty-seven output tokens with the user, after five were donated and three burned. -/
def history : List Action :=
  [deposit 80, delegate 50, donation 5, burning 3, withdrawal 20, forcedExit 30]

theorem history_uses : ∀ a ∈ history,
    a.FromOutside ∧ a.NotSignedBy registry.addresses ∧ a.Uses (· = registry.programs) := by
  have huser := signedBy_outside (k := user) rfl
  have hauthority := signedBy_outside (k := authority) rfl
  have huser' := signedBy_apart user_apart
  have hauthority' := signedBy_apart authority_apart
  intro a ha
  simp only [history, List.mem_cons, List.not_mem_nil, or_false] at ha
  rcases ha with rfl | rfl | rfl | rfl | rfl | rfl
  · exact ⟨huser, huser', rfl⟩
  · exact ⟨hauthority, hauthority', rfl⟩
  · exact ⟨huser, huser', trivial⟩
  · exact ⟨huser, huser', trivial⟩
  · exact ⟨huser, huser', rfl⟩
  · exact ⟨huser, huser', rfl⟩

theorem history_honest :
    ∀ a ∈ history, a.FromOutside ∧ a.Uses (HonestPrograms registry.addresses registry.mints) := by
  intro a ha
  obtain ⟨hp, -, hu⟩ := history_uses a ha
  refine ⟨hp, hu.mono ?_⟩
  rintro programs rfl
  exact registry.honest

/-- The initialization and the history after it. -/
def lifetime : List Action := initialization 1000 :: history

theorem lifetime_uses : ∀ a ∈ lifetime,
    a.FromOutside ∧ a.NotSignedBy registry.addresses ∧ a.Uses (· = registry.programs) := by
  intro a ha
  rcases List.mem_cons.1 ha with rfl | ha
  · exact ⟨signedBy_outside (k := authority) rfl, signedBy_apart authority_apart, rfl⟩
  · exact history_uses a ha

/-- The state after the initialization. -/
def opened (limit : UInt64) : State := (deployed ledger).setPool pool (record limit)

theorem initialization_eq (limit : UInt64) :
    Action.attempt findBump (initialization limit) (deployed ledger) = .ok (opened limit) :=
  rfl

theorem ledger_sound : LedgerSound ledger :=
  ledgerSound_ofLists (by decide) (by decide) (by decide)

theorem ledger_feeFree : ledger.FeeFree :=
  feeFree_ofLists (by decide)

theorem ledger_ownHands : InOwnHands registry.addresses ledger :=
  inOwnHands_ofLists (by decide) _

theorem operating_ownHands : InOwnHands registry.addresses operating.ledger :=
  inOwnHands_ofLists (by decide) _

theorem operating_sound : LedgerSound operating.ledger :=
  ledgerSound_ofLists (by decide) (by decide) (by decide)

end Sample

end AdraLrt
