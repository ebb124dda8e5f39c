import AdraLrt.Declared

/-!
# Transactions of several instructions

The scripts put several instructions into one transaction: they create a token account before they
delegate from it, or restake before they deposit. The transaction fails when one of its instructions
does, and an account that one of them lists as a signer or as writable is so for all of them
(`privileges`).

Such a transaction reaches no state that single instructions do not reach (`transactions_reach`), so
with honest AVSs pools stay backed whatever transactions are sent (`transactions_backed`). What it
changes is the privileges: a deposit, which by itself may not write the account it takes the tokens
from, succeeds with an instruction that lists this account as writable
(`deposit_in_transaction_iff`).
-/

set_option autoImplicit false

namespace AdraLrt

open TokenLedger Checked

/-- `create_idempotent` of the associated-token program: the account may be there already. -/
def createAssociatedTokenIdempotent (p : Privileges Pubkey)
    (key wallet tokenProgram mint : Pubkey) (s : State) : Except ProgramError State :=
  match s.ledger.accounts key with
  | some a =>
      -- an account of this token program stands, and the rest of it has to be right
      if a.program = tokenProgram then do
        require (key = getAssociatedTokenAddress wallet tokenProgram mint) .invalidSeeds
        require (a.owner = wallet ∧ a.mint = mint) .calleeFailed
        pure s
      else createAssociatedToken p key wallet tokenProgram mint s
  | none => createAssociatedToken p key wallet tokenProgram mint s

/-- An instruction of a transaction. `remaining` are accounts that the client adds to those of the
call, and `payer` pays for an account that is created. -/
inductive TxIx where
  | call (programs : Programs) (c : Call) (remaining : List (AccountMeta Pubkey))
  | token (payer program : Pubkey) (ix : TokenIx Pubkey)
  | create (payer key wallet tokenProgram mint : Pubkey)
  | createIdempotent (payer key wallet tokenProgram mint : Pubkey)

namespace TxIx

/-- The accounts of the instruction. An account that a token-program instruction initializes is
allocated first. -/
def metas : TxIx → List (AccountMeta Pubkey)
  | call _ c remaining => c.metas ++ remaining
  | token payer _ ix =>
      (Action.allocated ix).toList.flatMap
        (fun k => [accountMeta payer true, accountMeta k true]) ++ ix.metas
  | create payer key wallet tokenProgram mint =>
      [accountMeta payer true, accountMeta key false, readonlyMeta wallet false,
        readonlyMeta mint false, readonlyMeta (.program .system) false,
        readonlyMeta tokenProgram false]
  | createIdempotent payer key wallet tokenProgram mint =>
      [accountMeta payer true, accountMeta key false, readonlyMeta wallet false,
        readonlyMeta mint false, readonlyMeta (.program .system) false,
        readonlyMeta tokenProgram false]

def attempt (findBump : Pubkey → UInt8) (p : Privileges Pubkey) :
    TxIx → State → Except ProgramError State
  | call programs c _, s => (Action.call programs p c).attempt findBump s
  | token _ program ix, s => (Action.token p program ix).attempt findBump s
  | create _ key wallet tokenProgram mint, s =>
      (Action.create p key wallet tokenProgram mint).attempt findBump s
  | createIdempotent _ key wallet tokenProgram mint, s =>
      createAssociatedTokenIdempotent p key wallet tokenProgram mint s

/-- The behaviour of outside programs has the property `P`. -/
def Uses (P : Programs → Prop) : TxIx → Prop
  | call programs _ _ => P programs
  | token _ _ _ => True
  | create _ _ _ _ _ => True
  | createIdempotent _ _ _ _ _ => True

end TxIx

/-- The instructions of a transaction in their order. -/
abbrev Tx : Type := List TxIx

namespace Tx

/-- All accounts of the transaction. -/
def metas (tx : Tx) : List (AccountMeta Pubkey) := tx.flatMap TxIx.metas

/-- An instruction gets its own accounts, with the flags that they have anywhere in the
transaction. -/
def privileges (tx : Tx) (i : TxIx) : Privileges Pubkey :=
  { transaction tx.metas with available := (transaction i.metas).available }

/-- Run the instructions; if one fails, the transaction does. -/
def attempt (findBump : Pubkey → UInt8) (tx : Tx) : State → Except ProgramError State :=
  Rollback.bundle (fun i => i.attempt findBump (tx.privileges i)) tx

/-- No pool and no associated address signs. -/
def FromOutside (tx : Tx) : Prop :=
  ∀ m ∈ tx.metas, m.isSigner = true → m.pubkey.isReserved = false

def Uses (P : Programs → Prop) (tx : Tx) : Prop := ∀ i ∈ tx, i.Uses P

end Tx

section Reach

variable {findBump : Pubkey → UInt8} {P : Programs → Prop} {p : Privileges Pubkey} {tx : Tx}
  {s s' : State}

/-- Either the right account is there and nothing happens, or it is created. -/
theorem createAssociatedTokenIdempotent_eq_ok_iff {key wallet tokenProgram mint : Pubkey} :
    createAssociatedTokenIdempotent p key wallet tokenProgram mint s = .ok s' ↔
      key = getAssociatedTokenAddress wallet tokenProgram mint ∧
        ((∃ a, s.ledger.accounts key = some a ∧ a.program = tokenProgram ∧ a.owner = wallet ∧
          a.mint = mint ∧ s' = s) ∨
        (p.writable key = true ∧ s.ledger.accounts key = none ∧ s.ledger.mints key = none ∧
          (∃ m, s.ledger.mints mint = some m ∧ m.program = tokenProgram) ∧
          s' = { s with
            ledger := s.ledger.setAccount key (some (.fresh tokenProgram mint wallet)) })) := by
  unfold createAssociatedTokenIdempotent
  cases ha : s.ledger.accounts key with
  | none =>
      rw [createAssociatedToken_eq_ok_iff]
      constructor
      · rintro ⟨hw, hk, m, hnone, -, hm, hp, rfl⟩
        exact ⟨hk, Or.inr ⟨hw, rfl, hnone, ⟨m, hm, hp⟩, rfl⟩⟩
      · rintro ⟨hk, ⟨a, hsome, -⟩ | ⟨hw, -, hnone, ⟨m, hm, hp⟩, rfl⟩⟩
        · cases hsome
        · exact ⟨hw, hk, m, hnone, ha, hm, hp, rfl⟩
  | some a =>
      by_cases hprogram : a.program = tokenProgram
      · simp only [if_pos hprogram, bind_eq_ok_iff, require_eq_ok_iff, pure_eq_ok_iff, exists_const]
        constructor
        · rintro ⟨hk, ⟨howner, hmint⟩, rfl⟩
          exact ⟨hk, Or.inl ⟨a, rfl, hprogram, howner, hmint, rfl⟩⟩
        · rintro ⟨hk, ⟨b, hb, -, howner, hmint, rfl⟩ | ⟨-, hnone, -⟩⟩
          · obtain rfl := Option.some.inj hb
            exact ⟨hk, ⟨howner, hmint⟩, rfl⟩
          · cases hnone
      · -- an account of the other token program is in the way of a new one
        simp only [if_neg hprogram, createAssociatedToken_eq_ok_iff]
        constructor
        · rintro ⟨-, -, m, -, hnone, -⟩
          rw [ha] at hnone
          cases hnone
        · rintro ⟨-, ⟨b, hb, hp, -⟩ | ⟨-, hnone, -⟩⟩
          · obtain rfl := Option.some.inj hb
            exact absurd hp hprogram
          · cases hnone

/-- An instruction of a transaction does nothing or what a single one does. -/
theorem txIx_reaches {i : TxIx} (hp : ∀ k, p.signer k = true → k.isReserved = false)
    (hu : i.Uses P) (h : i.attempt findBump p s = .ok s') :
    Rollback.Reaches (Action.attempt findBump) (fun a => a.FromOutside ∧ a.Uses P) s s' := by
  cases i with
  | call programs c remaining => exact .single (a := .call programs p c) ⟨hp, hu⟩ h
  | token payer program ix => exact .single (a := .token p program ix) ⟨hp, trivial⟩ h
  | create payer key wallet tokenProgram mint =>
      exact .single (a := .create p key wallet tokenProgram mint) ⟨hp, trivial⟩ h
  | createIdempotent payer key wallet tokenProgram mint =>
      obtain ⟨hk, ⟨-, -, -, -, -, rfl⟩ | ⟨hw, hnone, hmint, ⟨m, hm, hmp⟩, rfl⟩⟩ :=
        createAssociatedTokenIdempotent_eq_ok_iff.1 h
      · exact Rollback.Reaches.refl _
      · exact .single (a := .create p key wallet tokenProgram mint) ⟨hp, trivial⟩
          (attempt_create_iff.2 ⟨hw, hk, m, hmint, hnone, hm, hmp, rfl⟩)

theorem Tx.FromOutside.signer (h : tx.FromOutside) {i : TxIx} {k : Pubkey}
    (hk : (tx.privileges i).signer k = true) : k.isReserved = false :=
  transaction_signer_all (P := (·.isReserved = false)) h hk

variable (findBump) in
/-- Transactions reach no state that single instructions do not reach: for every run of transactions
from outside there is a run of single instructions from outside, with the same behaviour of outside
programs, to the same state. -/
theorem transactions_reach {txs : List Tx} (htxs : ∀ tx ∈ txs, tx.FromOutside ∧ tx.Uses P)
    (s : State) :
    ∃ as, (∀ a ∈ as, a.FromOutside ∧ a.Uses P) ∧
      run findBump s as = Rollback.run (Tx.attempt findBump) s txs := by
  refine Rollback.run_simulated ?_ s
  intro tx htx t t' h
  obtain ⟨hp, hu⟩ := htxs tx htx
  refine Rollback.bundle_simulated ?_ h
  intro i hi u u' hiu
  exact txIx_reaches (fun k hk => hp.signer hk) (hu i hi) hiu

/-- Pools stay backed. After any run of transactions from a sound deployment without transfer fees,
whoever signed, with honest AVSs: the records, the ledger and the pools are sound, and the assets of
every pool whose mints are not AVS mints cover its output tokens. -/
theorem transactions_backed {avss : Set Pubkey} {avsMints : Finset Pubkey} {l : Ledger Pubkey}
    {txs : List Tx} (hl : LedgerSound l) (hf : l.FeeFree)
    (htxs : ∀ tx ∈ txs, tx.FromOutside ∧ tx.Uses (HonestPrograms avss avsMints)) :
    Sound findBump (Rollback.run (Tx.attempt findBump) (deployed l) txs) ∧
      AllBacked avsMints (Rollback.run (Tx.attempt findBump) (deployed l) txs) := by
  obtain ⟨as, has, heq⟩ := transactions_reach findBump htxs (deployed l)
  obtain ⟨hsound, -, hbacked⟩ := run_allBacked findBump hl hf has
  rw [heq] at hsound hbacked
  exact ⟨hsound, hbacked⟩

end Reach

/-! ## Privileges of the instructions -/

section Privileges

variable {tx : Tx} {i : TxIx} {m : AccountMeta Pubkey}

/-- An instruction has what it asks for. -/
theorem Tx.privileges_admits (hi : i ∈ tx) (hm : m ∈ i.metas) :
    (tx.privileges i).admits m = true := by
  have hown : (transaction i.metas).admits m = true := transaction_admits hm
  have hall : (transaction tx.metas).admits m = true :=
    transaction_admits (List.mem_flatMap.2 ⟨i, hi, hm⟩)
  simp only [Privileges.admits, Bool.and_eq_true] at hown hall ⊢
  exact ⟨⟨hown.1.1, hall.1.2⟩, hall.2⟩

theorem Tx.privileges_writable_iff {k : Pubkey} :
    (tx.privileges i).writable k = true ↔ ∃ m ∈ tx.metas, m.pubkey = k ∧ m.isWritable = true := by
  simp only [Tx.privileges, transaction, List.any_eq_true, Bool.and_eq_true, decide_eq_true_eq]

end Privileges

/-- A deposit in a transaction. In the setting, on an accepted account list, a deposit that the
plain ledger covers succeeds if and only if some instruction of its transaction lists the account
that the tokens are taken from as writable. -/
theorem deposit_in_transaction_iff {findBump : Pubkey → UInt8} {avsMints : Finset Pubkey}
    {programs : Programs} {tx : Tx} {a : DepositAccounts} {amount : UInt64}
    {remaining : List (AccountMeta Pubkey)} {s : State}
    (hi : TxIx.call programs (.deposit a amount) remaining ∈ tx)
    (h : Setting avsMints programs (tx.privileges (.call programs (.deposit a amount) remaining))
      (.deposit a amount) s)
    (hacc : Call.Accepted (tx.privileges (.call programs (.deposit a amount) remaining)) s
      (.deposit a amount))
    (hc : Call.Covered s (.deposit a amount)) :
    (∃ s', TxIx.attempt findBump (tx.privileges (.call programs (.deposit a amount) remaining))
        (.call programs (.deposit a amount) remaining) s = .ok s') ↔
      ∃ m ∈ tx.metas, m.pubkey = a.signerInputTokenVault ∧ m.isWritable = true := by
  rw [← Tx.privileges_writable_iff (i := .call programs (.deposit a amount) remaining)]
  constructor
  · rintro ⟨s', hs'⟩
    obtain ⟨d, -⟩ := (execute_deposit_iff ..).1 hs'
    exact writable_of_metas ((exec_eq_ok_iff ..).1 d.stake_eq).1 (by simp [TokenIx.metas])
  · intro hw
    have hadm : ∀ m ∈ a.metas,
        (tx.privileges (.call programs (.deposit a amount) remaining)).admits m = true :=
      fun m hm => Tx.privileges_admits hi (List.mem_append_left remaining hm)
    refine @execute_of_covered avsMints ⟨findBump, programs⟩ _ _ _ h hacc ?_ hc
    intro m hm
    rcases List.mem_cons.1 hm with rfl | hm
    · -- the account is on the list of the deposit, where it is not writable
      have havailable := available_of_admits (hadm (readonlyMeta a.signerInputTokenVault false)
        (by simp [DepositAccounts.metas]))
      have hkey : (tx.privileges (.call programs (.deposit a amount) remaining)).available
          a.signerInputTokenVault = true := havailable
      simp [Privileges.admits, accountMeta, hkey, hw]
    · exact hadm m hm

namespace Sample

/-- The user deposits ten tokens, after an instruction that has to do with the account they come
from. -/
def savingTx : Tx :=
  [.createIdempotent user saving.signerInputTokenVault user tokenProgram inputMint,
    .call registry.programs (.deposit saving 10) []]

theorem savingTx_signed : savingTx.FromOutside := by
  unfold Tx.FromOutside
  decide

theorem saving_in_transaction :
    ∃ s', TxIx.attempt findBump
      (savingTx.privileges (.call registry.programs (.deposit saving 10) []))
      (.call registry.programs (.deposit saving 10) []) (opened 1000) = .ok s' := by
  have hsetting : Setting registry.mints registry.programs
      (savingTx.privileges (.call registry.programs (.deposit saving 10) [])) (.deposit saving 10)
      (opened 1000) := {
    ledger := ledger_sound
    legacy := fun m _ => program_ofLists (by decide) m
    thawed := fun k _ => ledger_thawed k
    user := by
      rintro u ⟨⟩
      exact ⟨rfl, fun x program h => by cases h⟩
    honest := registry.honest.univ
    avs := fun _ _ h => by cases h }
  obtain ⟨x, hx, -⟩ : ∃ x, Deposit.tryAccounts
      (savingTx.privileges (.call registry.programs (.deposit saving 10) [])) saving
        (opened 1000) = .ok x ∧ true = true := exists_eq_ok (by decide)
  exact (deposit_in_transaction_iff (List.mem_cons_of_mem _ List.mem_cons_self) hsetting ⟨x, hx⟩
    ⟨by decide, by decide⟩).2 ⟨accountMeta saving.signerInputTokenVault false, by decide, rfl, rfl⟩

/-- The transaction that opens the pool. -/
def openingTx : Tx := [.call registry.programs (.initializePool opening 1000) []]

/-- The pool is opened, and the user deposits twice. -/
theorem saving_backed :
    AllBacked registry.mints
      (Rollback.run (Tx.attempt findBump) (deployed ledger) [openingTx, savingTx, savingTx]) := by
  have htxs : ∀ tx ∈ [openingTx, savingTx, savingTx],
      tx.FromOutside ∧ tx.Uses (HonestPrograms registry.addresses registry.mints) := by
    intro tx htx
    simp only [List.mem_cons, List.not_mem_nil, or_false, or_self] at htx
    rcases htx with rfl | rfl
    · refine ⟨by unfold Tx.FromOutside; decide, ?_⟩
      intro i hi
      obtain rfl := List.mem_singleton.1 hi
      exact registry.honest
    · refine ⟨savingTx_signed, ?_⟩
      intro i hi
      simp only [savingTx, List.mem_cons, List.not_mem_nil, or_false] at hi
      rcases hi with rfl | rfl
      · trivial
      · exact registry.honest
  exact (transactions_backed ledger_sound ledger_feeFree htxs).2

end Sample

end AdraLrt
