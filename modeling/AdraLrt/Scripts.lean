import AdraLrt.Journal
import AdraLrt.Numbers.Double
import AdraLrt.Transaction
import AdraLrt.Unwind
import AdraLrt.Wallet

/-!
# The scripts

The scripts of the repository check what they did. Those that withdraw, exit, delegate and
undelegate ask a node for some balances, send one transaction, ask again and compare the differences
with the number of tokens in their constants; a failed transaction is printed only, so the
comparison has to tell (`runScript`). The node answers with doubles and the differences are
differences of doubles, which need not be what they should: two and two tenths less one and two
tenths is not one. As long as nobody else moves the compared balances, the script ends well exactly
when its transaction went through and the doubles at these balances differ by the number of tokens,
or this number is zero (`runScript_eq_ok_iff`). Whole numbers of tokens do
(`BalanceCheck.legible_of_whole`).

The script `transfer-delegate-authority.ts` reads a pool, checks its authority, transfers the
authority to a new key, checks again and transfers it back, each transfer in a transaction of its
own (`handOn`, for any chain of keys). As long as others do not sign for the authority of the
moment, no check and no transfer of the chain fails, the state that is reached is the one of the run
with the transfers among the other transactions, and the record at the end is the first one but for
the authority (`handOn_succeeds`). The script is the chain to a new key and back
(`transferAndBack`), so it ends with the record that it began with.
-/

set_option autoImplicit false

namespace AdraLrt

open TokenLedger Checked

/-- Why a script stops: an account that it reads is missing, a comparison fails, or a transaction
that it depends on. -/
inductive ScriptError where
  | account
  | assertion
  | transaction (e : ProgramError)

/-! ## Compared balances -/

/-- What a node answers for the balance of a token account: the double that `uiAmount` gives for the
decimals of the mint and the amount. -/
def uiBalance (uiAmount : UInt8 → Nat → ℚ) (l : Ledger Pubkey) (k : Pubkey) : Option ℚ := do
  let a ← l.accounts k
  let m ← l.mints a.mint
  some (uiAmount m.decimals a.amount)

/-- The balance at `key` is expected to rise or to fall. -/
structure BalanceCheck where
  key : Pubkey
  rises : Bool

namespace BalanceCheck

/-- What is subtracted from what. -/
def difference (x : BalanceCheck) (before after : ℚ) : ℚ :=
  if x.rises then Double.sub after before else Double.sub before after

/-- The comparison of the balances before and after. -/
def Passes (x : BalanceCheck) (uiAmount : UInt8 → Nat → ℚ) (tokens : Nat) (l l' : Ledger Pubkey) :
    Prop :=
  ∃ u ∈ uiBalance uiAmount l x.key, ∃ u' ∈ uiBalance uiAmount l' x.key, x.difference u u' = tokens

instance (x : BalanceCheck) (uiAmount : UInt8 → Nat → ℚ) (tokens : Nat) (l l' : Ledger Pubkey) :
    Decidable (x.Passes uiAmount tokens l l') :=
  inferInstanceAs (Decidable (∃ u ∈ uiBalance uiAmount l x.key,
    ∃ u' ∈ uiBalance uiAmount l' x.key, x.difference u u' = tokens))

end BalanceCheck

/-- The scripts with the keys that they sign with and the AVS that they go to. The script for a
deposit is not among them: its transaction also calls a restaking program. -/
inductive Script where
  | withdraw (user : Pubkey)
  | withdrawStake (user avs avsTokenMint avsProgram : Pubkey)
  | delegate (authority avs avsTokenMint avsProgram : Pubkey)
  | undelegate (authority avs avsTokenMint avsProgram : Pubkey)

/-- `LAMPORTS_PER_SOL`. -/
def lamportsPerSol : Nat := 10 ^ 9

/-- The argument of the instruction for a number of tokens. -/
def lamports (tokens : Nat) : UInt64 := .ofNat (tokens * lamportsPerSol)

namespace Script

/-- The key that signs for the instruction. -/
def signer : Script → Pubkey
  | withdraw user => user
  | withdrawStake user _ _ _ => user
  | delegate authority _ _ _ => authority
  | undelegate authority _ _ _ => authority

section Constants

variable (tokenProgram pool : Pubkey) (r : LRTPool)

/-- The instruction, with the accounts that the script derives. -/
def call (tokens : Nat) : Script → Call
  | withdraw user => .withdraw (.derived user tokenProgram pool r) (lamports tokens)
  | withdrawStake user avs avsTokenMint avsProgram =>
      .withdrawDelegatedStake (.derived user tokenProgram pool r avs avsTokenMint avsProgram)
        (lamports tokens)
  | delegate authority avs avsTokenMint avsProgram =>
      .delegate (.derived tokenProgram pool r avs avsTokenMint avsProgram authority)
        (lamports tokens)
  | undelegate authority avs avsTokenMint avsProgram =>
      .undelegate (.derived tokenProgram pool r avs avsTokenMint avsProgram authority)
        (lamports tokens)

/-- The remaining accounts that it passes. -/
def remaining : Script → List (AccountMeta Pubkey)
  | withdraw _ => []
  | withdrawStake _ avs _ _ => [accountMeta avs false]
  | delegate _ avs _ _ =>
      [accountMeta pool false, accountMeta avs false, accountMeta r.inputTokenMint false]
  | undelegate _ avs _ _ =>
      [accountMeta (getAssociatedTokenAddress pool tokenProgram r.inputTokenMint) false,
        accountMeta pool false, accountMeta avs false, accountMeta r.inputTokenMint false]

/-- What comes before it in the transaction: a delegation creates the vault if it is not there. -/
def creation : Script → Tx
  | withdraw _ => []
  | withdrawStake _ _ _ _ => []
  | delegate authority _ _ _ =>
      [.createIdempotent authority (getAssociatedTokenAddress pool tokenProgram r.inputTokenMint)
        pool tokenProgram r.inputTokenMint]
  | undelegate _ _ _ _ => []

def tx (programs : Programs) (tokens : Nat) (script : Script) : Tx :=
  script.creation tokenProgram pool r ++
    [.call programs (script.call tokenProgram pool r tokens) (script.remaining tokenProgram pool r)]

/-- What the script compares. -/
def checks : Script → List BalanceCheck
  | withdraw user =>
      [⟨getAssociatedTokenAddress pool tokenProgram r.inputTokenMint, false⟩,
        ⟨getAssociatedTokenAddress user tokenProgram r.outputTokenMint, false⟩]
  | withdrawStake user _ avsTokenMint _ =>
      [⟨getAssociatedTokenAddress user tokenProgram r.outputTokenMint, false⟩,
        ⟨getAssociatedTokenAddress pool tokenProgram avsTokenMint, false⟩,
        ⟨getAssociatedTokenAddress user tokenProgram r.inputTokenMint, true⟩]
  | delegate _ _ avsTokenMint _ =>
      [⟨getAssociatedTokenAddress pool tokenProgram r.inputTokenMint, false⟩,
        ⟨getAssociatedTokenAddress pool tokenProgram avsTokenMint, true⟩]
  | undelegate _ _ avsTokenMint _ =>
      [⟨getAssociatedTokenAddress pool tokenProgram r.inputTokenMint, true⟩,
        ⟨getAssociatedTokenAddress pool tokenProgram avsTokenMint, false⟩]

end Constants

end Script

/-- The state that a script leaves, with what others do before its transaction and after it. A
failed transaction is caught and printed, and the script goes on. -/
def scriptRun (findBump : Pubkey → UInt8) (tx : Tx) (before after : List Action) (s : State) :
    State :=
  run findBump (Rollback.apply (Tx.attempt findBump) tx (run findBump s before)) after

/-- `main` of a script, with the number of tokens in its constants. The balances of one reading are
read together. -/
def runScript (findBump : Pubkey → UInt8) (uiAmount : UInt8 → Nat → ℚ) (programs : Programs)
    (tokenProgram pool : Pubkey) (r : LRTPool) (tokens : Nat) (script : Script)
    (before after : List Action) (s : State) : Except ScriptError State := do
  let checks := script.checks tokenProgram pool r
  require (∀ x ∈ checks, (uiBalance uiAmount s.ledger x.key).isSome = true) .account
  -- the numbers that `BN` takes
  require (tokens * lamportsPerSol < 2 ^ 53) .assertion
  let s' := scriptRun findBump (script.tx tokenProgram pool r programs tokens) before after s
  require (∀ x ∈ checks, (uiBalance uiAmount s'.ledger x.key).isSome = true) .account
  require (∀ x ∈ checks, x.Passes uiAmount tokens s.ledger s'.ledger) .assertion
  pure s'

namespace BalanceCheck

/-- The amount that is expected after it was `n`. -/
def expected (x : BalanceCheck) (tokens n : Nat) : Nat :=
  if x.rises then n + tokens * lamportsPerSol else n - tokens * lamportsPerSol

/-- At the present balance the comparison can see a movement of so many tokens. -/
def Legible (x : BalanceCheck) (uiAmount : UInt8 → Nat → ℚ) (tokens : Nat) (l : Ledger Pubkey) :
    Prop :=
  ∀ a ∈ l.accounts x.key, ∀ m ∈ l.mints a.mint,
    x.difference (uiAmount m.decimals a.amount) (uiAmount m.decimals (x.expected tokens a.amount)) =
      tokens

variable {x : BalanceCheck} {uiAmount : UInt8 → Nat → ℚ} {tokens : Nat} {l l' : Ledger Pubkey}

theorem difference_same (x : BalanceCheck) (u : ℚ) : x.difference u u = 0 := by
  rw [difference, Double.sub_same, ite_self]

/-- Nothing is rounded where the account holds a whole number of tokens of nine decimals and the
node tells whole numbers exactly. -/
theorem legible_of_whole {n : Nat} (hread : ∀ j ≤ n + tokens, uiAmount 9 (j * lamportsPerSol) = j)
    (hamount : ∀ a ∈ l.accounts x.key, a.amount = n * lamportsPerSol)
    (hdecimals : ∀ a ∈ l.accounts x.key, ∀ m ∈ l.mints a.mint, m.decimals = 9)
    (hle : x.rises = false → tokens ≤ n) (hshort : tokens < 2 ^ 53) :
    x.Legible uiAmount tokens l := by
  intro a ha m hm
  rw [hamount a ha, hdecimals a ha m hm, hread n (Nat.le_add_right n tokens), difference, expected]
  cases hrises : x.rises with
  | true =>
      rw [if_pos rfl, if_pos rfl, ← Nat.add_mul, hread _ (Nat.le_refl _)]
      apply Double.sub_eq_of_natCast hshort
      rw [Nat.cast_add, add_sub_cancel_left]
  | false =>
      have hsub : n - tokens ≤ n + tokens := by omega
      rw [if_neg Bool.false_ne_true, if_neg Bool.false_ne_true, ← Nat.sub_mul, hread _ hsub]
      apply Double.sub_eq_of_natCast hshort
      rw [Nat.cast_sub (hle hrises), sub_sub_cancel]

end BalanceCheck

section Readings

variable {uiAmount : UInt8 → Nat → ℚ} {l l' : Ledger Pubkey} {wallet tokenProgram mint : Pubkey}

theorem uiBalance_eq_some_iff {k : Pubkey} {u : ℚ} :
    uiBalance uiAmount l k = some u ↔ ∃ a m, l.accounts k = some a ∧ l.mints a.mint = some m ∧
      uiAmount m.decimals a.amount = u := by
  simp [uiBalance, Option.bind_eq_some_iff]

/-- In a sound ledger the node can tell the balance of every account. -/
theorem uiBalance_isSome_iff (hl : LedgerSound l) {k : Pubkey} :
    (uiBalance uiAmount l k).isSome = true ↔ (l.accounts k).isSome = true := by
  simp only [Option.isSome_iff_exists, uiBalance_eq_some_iff]
  constructor
  · rintro ⟨u, a, m, ha, -⟩
    exact ⟨a, ha⟩
  · rintro ⟨a, ha⟩
    obtain ⟨m, hm, -⟩ := hl.mint_some k a ha
    exact ⟨_, a, m, ha, hm, rfl⟩

end Readings

section Effect

variable {avss : Set Pubkey} {avsMints : Finset Pubkey} {findBump : Pubkey → UInt8}
  {programs : Programs} {tokenProgram pool : Pubkey} {r : LRTPool} {tokens : Nat} {script : Script}
  {s s' t : State}

/-- The number of tokens is not cut off. -/
theorem lamports_toNat (h : tokens * lamportsPerSol < 2 ^ 53) :
    (lamports tokens).toNat = tokens * lamportsPerSol := by
  rw [lamports, UInt64.toNat_ofNat']
  exact Nat.mod_eq_of_lt (h.trans (by decide))

/-- The compared balances move by what the script expects. -/
theorem Script.call_effect {p : Privileges Pubkey}
    (h : Runtime.execute ⟨findBump, programs⟩ p (script.call tokenProgram pool r tokens) s = .ok s')
    (hh : HonestPrograms avss avsMints programs) (hsigner : script.signer.isPool = false)
    (havs : script.signer ∉ avss) (hmint : r.inputTokenMint ≠ r.outputTokenMint)
    (hin : r.inputTokenMint ∉ avsMints) {x : BalanceCheck}
    (hx : x ∈ script.checks tokenProgram pool r) :
    (script.call tokenProgram pool r tokens).credited x.key +
        (if x.rises then 0 else (lamports tokens).toNat) =
      (script.call tokenProgram pool r tokens).debited x.key +
        (if x.rises then (lamports tokens).toNat else 0) := by
  cases script with
  | withdraw user =>
      obtain ⟨d, -⟩ := (execute_withdraw_iff ..).1 h
      have hne : user ≠ pool := Pubkey.ne_of_not_isPool (isPool_of_eq d.accepted.pool_eq) hsigner
      simp only [Script.checks, List.mem_cons, List.not_mem_nil, or_false] at hx
      rcases hx with rfl | rfl
      · simp [Script.call, WithdrawAccounts.derived, Call.credited, Call.debited,
          getAssociatedTokenAddress_inj, hne.symm]
      · simp [Script.call, WithdrawAccounts.derived, Call.credited, Call.debited,
          getAssociatedTokenAddress_inj, hne, hmint.symm]
  | withdrawStake user avs avsTokenMint avsProgram =>
      obtain ⟨d, -⟩ := (execute_withdrawDelegatedStake_iff ..).1 h
      obtain ⟨havs_pool, hmem, hmem_mint, -⟩ := hh _ _ _ _ _ _ _ d.avs
      have hisPool : pool.isPool = true := isPool_of_eq d.accepted.pool_eq
      have hne : user ≠ pool := Pubkey.ne_of_not_isPool hisPool hsigner
      have hne_avs : avs ≠ pool := Pubkey.ne_of_not_isPool hisPool havs_pool
      have huser_avs : user ≠ avs := by
        rintro rfl
        exact havs hmem
      have hmint_avs : avsTokenMint ≠ r.inputTokenMint := ne_of_mem_of_not_mem hmem_mint hin
      simp only [Script.checks, List.mem_cons, List.not_mem_nil, or_false] at hx
      rcases hx with rfl | rfl | rfl
      · simp [Script.call, WithdrawStakeAccounts.derived, Call.credited, Call.debited,
          getAssociatedTokenAddress_inj, hne, huser_avs, hmint.symm]
      · simp [Script.call, WithdrawStakeAccounts.derived, Call.credited, Call.debited,
          getAssociatedTokenAddress_inj, hne.symm, hne_avs.symm, hmint_avs]
      · simp [Script.call, WithdrawStakeAccounts.derived, Call.credited, Call.debited,
          getAssociatedTokenAddress_inj, hne, huser_avs, hmint]
  | delegate authority avs avsTokenMint avsProgram =>
      obtain ⟨d, -, -⟩ := (execute_delegate_iff ..).1 h
      obtain ⟨havs_pool, -, hmem_mint, -⟩ := hh _ _ _ _ _ _ _ d.avs
      have hne_avs : avs ≠ pool :=
        Pubkey.ne_of_not_isPool (isPool_of_eq d.accepted.pool_eq) havs_pool
      have hmint_avs : avsTokenMint ≠ r.inputTokenMint := ne_of_mem_of_not_mem hmem_mint hin
      simp only [Script.checks, List.mem_cons, List.not_mem_nil, or_false] at hx
      rcases hx with rfl | rfl
      · simp [Script.call, DelegateAccounts.derived, Call.credited, Call.debited,
          getAssociatedTokenAddress_inj, hne_avs.symm, hmint_avs.symm]
      · simp [Script.call, DelegateAccounts.derived, Call.credited, Call.debited,
          getAssociatedTokenAddress_inj, hne_avs.symm, hmint_avs]
  | undelegate authority avs avsTokenMint avsProgram =>
      obtain ⟨d, -, -⟩ := (execute_undelegate_iff ..).1 h
      obtain ⟨havs_pool, -, hmem_mint, -⟩ := hh _ _ _ _ _ _ _ d.avs
      have hne_avs : avs ≠ pool :=
        Pubkey.ne_of_not_isPool (isPool_of_eq d.accepted.pool_eq) havs_pool
      have hmint_avs : avsTokenMint ≠ r.inputTokenMint := ne_of_mem_of_not_mem hmem_mint hin
      simp only [Script.checks, List.mem_cons, List.not_mem_nil, or_false] at hx
      rcases hx with rfl | rfl
      · simp [Script.call, DelegateAccounts.derived, Call.credited, Call.debited,
          getAssociatedTokenAddress_inj, hne_avs.symm, hmint_avs.symm]
      · simp [Script.call, DelegateAccounts.derived, Call.credited, Call.debited,
          getAssociatedTokenAddress_inj, hne_avs.symm, hmint_avs]

/-- What comes first moves nothing. -/
theorem Script.creation_attempt {p : TxIx → Privileges Pubkey}
    (h : Rollback.bundle (fun i => i.attempt findBump (p i))
      (script.creation tokenProgram pool r) s = .ok t) :
    t.ledger.mints = s.ledger.mints ∧ ∀ k, t.ledger.balance k = s.ledger.balance k := by
  cases script with
  | delegate authority avs avsTokenMint avsProgram =>
      rw [Script.creation, Rollback.bundle_singleton] at h
      obtain ⟨-, ⟨-, -, -, -, -, rfl⟩ | ⟨-, hnone, -, -, rfl⟩⟩ :=
        createAssociatedTokenIdempotent_eq_ok_iff.1 h
      · exact ⟨rfl, fun _ => rfl⟩
      · exact ⟨rfl, fun k => Ledger.balance_create hnone _ _ _ k⟩
  | _ =>
      cases h
      exact ⟨rfl, fun _ => rfl⟩

/-- The instruction in its transaction goes through in a state with the same balances. -/
theorem Script.tx_attempt
    (h : (script.tx tokenProgram pool r programs tokens).attempt findBump s = .ok t) :
    ∃ (p : Privileges Pubkey) (u : State), u.ledger.mints = s.ledger.mints ∧
      (∀ k, u.ledger.balance k = s.ledger.balance k) ∧
      Runtime.execute ⟨findBump, programs⟩ p (script.call tokenProgram pool r tokens) u =
        .ok t := by
  rw [Tx.attempt, Script.tx, Rollback.bundle_append_eq_ok_iff] at h
  obtain ⟨u, hu, h⟩ := h
  rw [Rollback.bundle_singleton] at h
  obtain ⟨hmints, hbalance⟩ := Script.creation_attempt hu
  exact ⟨_, u, hmints, hbalance, h⟩

/-- Nobody but the signer of the script signs. -/
theorem Script.tx_fromOutside (hsigner : script.signer.isReserved = false) :
    (script.tx tokenProgram pool r programs tokens).FromOutside := by
  have hkey : ∀ m ∈ (script.tx tokenProgram pool r programs tokens).metas, m.isSigner = true →
      m.pubkey = script.signer := by
    cases script
    all_goals
      simp [Script.tx, Script.creation, Script.call, Script.remaining, Script.signer, Tx.metas,
        TxIx.metas, Call.metas, WithdrawAccounts.metas, WithdrawStakeAccounts.metas,
        DelegateAccounts.metas, WithdrawAccounts.derived, WithdrawStakeAccounts.derived,
        DelegateAccounts.derived, accountMeta, readonlyMeta]
  intro m hm hs
  rw [hkey m hm hs]
  exact hsigner

theorem Script.tx_uses (hh : HonestPrograms avss avsMints programs) :
    (script.tx tokenProgram pool r programs tokens).Uses (HonestPrograms avss avsMints) := by
  intro i hi
  rcases List.mem_append.1 hi with hi | hi
  · cases script with
    | delegate authority avs avsTokenMint avsProgram =>
        obtain rfl := List.mem_singleton.1 hi
        trivial
    | _ => cases hi
  · obtain rfl := List.mem_singleton.1 hi
    exact hh

/-- The compared accounts are associated accounts. -/
theorem Script.checks_key {x : BalanceCheck} (hx : x ∈ script.checks tokenProgram pool r) :
    ∃ wallet mint, x.key = getAssociatedTokenAddress wallet tokenProgram mint := by
  cases script
  all_goals
    simp only [Script.checks, List.mem_cons, List.not_mem_nil, or_false] at hx
    rcases hx with rfl | rfl | rfl <;> exact ⟨_, _, rfl⟩

end Effect

section Run

variable {avss : Set Pubkey} {avsMints : Finset Pubkey} {findBump : Pubkey → UInt8}
  {programs : Programs} {tokenProgram pool : Pubkey} {r : LRTPool} {tokens : Nat} {script : Script}
  {s s' t : State}

variable (findBump) in
/-- A run of honest transactions from outside keeps the ledger sound and free of fees and the
decimals of every mint. -/
theorem run_readable {as : List Action}
    (has : ∀ a ∈ as, a.FromOutside ∧ a.Uses (HonestPrograms avss avsMints))
    (hl : LedgerSound s.ledger) (hf : s.ledger.FeeFree) :
    LedgerSound (run findBump s as).ledger ∧ (run findBump s as).ledger.FeeFree ∧
      ∀ m x, s.ledger.mints m = some x →
        ∃ x', (run findBump s as).ledger.mints m = some x' ∧ x'.decimals = x.decimals := by
  refine Rollback.run_invariant (I := fun t : State => LedgerSound t.ledger ∧ t.ledger.FeeFree ∧
    ∀ m x, s.ledger.mints m = some x →
      ∃ x', t.ledger.mints m = some x' ∧ x'.decimals = x.decimals) ?_
    ⟨hl, hf, fun m x hx => ⟨x, hx, rfl⟩⟩
  rintro a ha t t' ⟨hlt, hft, hmints⟩ h
  obtain ⟨hp, hu⟩ := has a ha
  refine ⟨attempt_ledgerSound hp hu.fundsOnly h hlt, attempt_feeFree hft hu.fundsOnly h, ?_⟩
  intro m x hx
  obtain ⟨y, hy, hyd⟩ := hmints m x hx
  have hquiet : a.privileges.signer (poolAddress m 0) = false :=
    hp.notSignedBy_pools _ (isPool_of_eq rfl)
  obtain ⟨z, hz, -, hzd, -⟩ := (attempt_termsKept hquiet hu.fundsOnly h).mint m y hy
  exact ⟨z, hz, hzd.trans hyd⟩

variable (findBump) in
/-- A run that does not move the balance at `k` leaves it as it is. -/
theorem run_quiet {as : List Action} {k : Pubkey}
    (has : ∀ a ∈ as, a.Uses (HonestPrograms avss avsMints) ∧ a.debited k = a.credited k)
    (hf : s.ledger.FeeFree) : (run findBump s as).ledger.balance k = s.ledger.balance k := by
  refine (Rollback.run_invariant
    (I := fun t : State => t.ledger.FeeFree ∧ t.ledger.balance k = s.ledger.balance k) ?_
    ⟨hf, rfl⟩).2
  intro a ha t t' ht h
  obtain ⟨hfree, hbalance⟩ := ht
  obtain ⟨huses, hquiet⟩ := has a ha
  have htally := attempt_balance_tally huses hfree h k
  refine ⟨attempt_feeFree hfree huses.fundsOnly h, ?_⟩
  omega

variable (findBump s) in
/-- The state that a script leaves is one that single instructions reach. -/
theorem scriptRun_eq_run {tx : Tx} {before after : List Action}
    (htx : tx.FromOutside ∧ tx.Uses (HonestPrograms avss avsMints))
    (hothers : ∀ a ∈ before ++ after, a.FromOutside ∧ a.Uses (HonestPrograms avss avsMints)) :
    ∃ as, (∀ a ∈ as, a.FromOutside ∧ a.Uses (HonestPrograms avss avsMints)) ∧
      scriptRun findBump tx before after s = run findBump s as := by
  obtain ⟨as, has, hrun⟩ := transactions_reach findBump
    (List.forall_mem_singleton.2 htx) (run findBump s before)
  refine ⟨before ++ (as ++ after), ?_, ?_⟩
  · intro a ha
    rcases List.mem_append.1 ha with ha | ha
    · exact hothers a (List.mem_append_left after ha)
    · rcases List.mem_append.1 ha with ha | ha
      · exact has a ha
      · exact hothers a (List.mem_append_right before ha)
  · show run findBump (Rollback.run (Tx.attempt findBump) (run findBump s before) [tx]) after = _
    rw [← hrun]
    simp only [run, Rollback.run_append]

theorem Script.checks_nonempty (script : Script) (tokenProgram pool : Pubkey) (r : LRTPool) :
    ∃ x, x ∈ script.checks tokenProgram pool r := by
  cases script
  all_goals exact ⟨_, List.mem_cons_self⟩

/-- What the comparisons rest on. The AVS programs are honest and their tokens are not the assets of
the pool; the signer of the script is no AVS and nobody's derived address; others send transactions
from outside that do not move the compared balances. -/
structure ScriptSetting (avss : Set Pubkey) (avsMints : Finset Pubkey) (programs : Programs)
    (tokenProgram pool : Pubkey) (r : LRTPool) (script : Script) (before after : List Action)
    (s : State) : Prop where
  honest : HonestPrograms avss avsMints programs
  signer : script.signer.isReserved = false
  notAvs : script.signer ∉ avss
  mints : r.inputTokenMint ≠ r.outputTokenMint
  asset : r.inputTokenMint ∉ avsMints
  others : ∀ a ∈ before ++ after, a.FromOutside ∧ a.Uses (HonestPrograms avss avsMints) ∧
    ∀ x ∈ script.checks tokenProgram pool r, a.debited x.key = a.credited x.key
  ledger : LedgerSound s.ledger
  feeFree : s.ledger.FeeFree

namespace ScriptSetting

variable {before after : List Action}

theorem tx (h : ScriptSetting avss avsMints programs tokenProgram pool r script before after s)
    (tokens : Nat) : (script.tx tokenProgram pool r programs tokens).FromOutside ∧
      (script.tx tokenProgram pool r programs tokens).Uses (HonestPrograms avss avsMints) :=
  ⟨Script.tx_fromOutside h.signer, Script.tx_uses h.honest⟩

theorem quiet (h : ScriptSetting avss avsMints programs tokenProgram pool r script before after s)
    {x : BalanceCheck} (hx : x ∈ script.checks tokenProgram pool r) :
    ∀ a ∈ before ++ after, a.Uses (HonestPrograms avss avsMints) ∧
      a.debited x.key = a.credited x.key :=
  fun a ha => (h.others a ha).2.imp_right fun hkeys => hkeys x hx

/-- At the end the ledger is sound and the mints have their decimals. -/
theorem readable
    (h : ScriptSetting avss avsMints programs tokenProgram pool r script before after s)
    (findBump : Pubkey → UInt8) (tokens : Nat) :
    LedgerSound (scriptRun findBump (script.tx tokenProgram pool r programs tokens) before after
        s).ledger ∧
      ∀ m y, s.ledger.mints m = some y → ∃ y', (scriptRun findBump
        (script.tx tokenProgram pool r programs tokens) before after s).ledger.mints m = some y' ∧
          y'.decimals = y.decimals := by
  obtain ⟨as, has, hrun⟩ := scriptRun_eq_run findBump s (h.tx tokens)
    fun a ha => ⟨(h.others a ha).1, (h.others a ha).2.1⟩
  rw [hrun]
  obtain ⟨hl, -, hdecimals⟩ := run_readable findBump has h.ledger h.feeFree
  exact ⟨hl, hdecimals⟩

/-- A compared balance becomes the expected one if the transaction of the script goes through. -/
theorem balance_of_ok
    (h : ScriptSetting avss avsMints programs tokenProgram pool r script before after s)
    {x : BalanceCheck} (hx : x ∈ script.checks tokenProgram pool r)
    (hfits : tokens * lamportsPerSol < 2 ^ 53)
    (htx : (script.tx tokenProgram pool r programs tokens).attempt findBump
      (run findBump s before) = .ok t) :
    (scriptRun findBump (script.tx tokenProgram pool r programs tokens) before after
      s).ledger.balance x.key = x.expected tokens (s.ledger.balance x.key) := by
  have hquiet := h.quiet hx
  -- what the others do leaves the compared balance alone, before the transaction and after it
  have hbefore : ∀ a ∈ before, a.FromOutside ∧ a.Uses (HonestPrograms avss avsMints) :=
    fun a ha => (h.others a (List.mem_append_left after ha)).imp_right And.left
  obtain ⟨hsound, hfree, -⟩ := run_readable findBump hbefore h.ledger h.feeFree
  have hstart := run_quiet findBump
    (fun a ha => hquiet a (List.mem_append_left after ha)) h.feeFree
  obtain ⟨p, u, hmints, hbalance, hcall⟩ := Script.tx_attempt htx
  have hfree_u : u.ledger.FeeFree := fun m y hy => hfree m y (hmints ▸ hy)
  have heffect := Script.call_effect hcall h.honest (Pubkey.not_isPool_of_not_isReserved h.signer)
    h.notAvs h.mints h.asset hx
  have htally := execute_balance hcall h.honest (feeFree_call hfree_u _) x.key
  have hfree_t : t.ledger.FeeFree := by
    obtain ⟨as, has, hrun⟩ := transactions_reach findBump
      (List.forall_mem_singleton.2 (h.tx tokens)) (run findBump s before)
    have ht : t = run findBump (run findBump s before) as :=
      (Rollback.apply_of_ok htx).symm.trans hrun.symm
    rw [ht]
    exact (run_readable findBump has hsound hfree).2.1
  have hend := run_quiet findBump
    (fun a ha => hquiet a (List.mem_append_right before ha)) hfree_t
  rw [scriptRun, Rollback.apply_of_ok htx, hend, BalanceCheck.expected]
  rw [lamports_toNat hfits] at heffect
  rw [hbalance, hstart] at htally
  cases hrises : x.rises with
  | true =>
      simp only [hrises, if_pos] at heffect ⊢
      omega
  | false =>
      simp only [hrises, Bool.false_eq_true, if_false] at heffect ⊢
      omega

/-- If it fails, the balance stays as it is. -/
theorem balance_of_error
    (h : ScriptSetting avss avsMints programs tokenProgram pool r script before after s)
    {x : BalanceCheck} (hx : x ∈ script.checks tokenProgram pool r) {e : ProgramError}
    (htx : (script.tx tokenProgram pool r programs tokens).attempt findBump
      (run findBump s before) = .error e) :
    (scriptRun findBump (script.tx tokenProgram pool r programs tokens) before after
      s).ledger.balance x.key = s.ledger.balance x.key := by
  have heq : scriptRun findBump (script.tx tokenProgram pool r programs tokens) before after s =
      run findBump s (before ++ after) := by
    rw [scriptRun, Rollback.apply_of_error htx]
    exact (Rollback.run_append s before after).symm
  rw [heq]
  exact run_quiet findBump (h.quiet hx) h.feeFree

/-- A comparison in terms of the amounts, which the node tells by the decimals of one mint. -/
theorem passes_iff
    (h : ScriptSetting avss avsMints programs tokenProgram pool r script before after s)
    (hs' : s' = scriptRun findBump (script.tx tokenProgram pool r programs tokens) before after s)
    {x : BalanceCheck} (hx : x ∈ script.checks tokenProgram pool r)
    (hstart : (s.ledger.accounts x.key).isSome = true)
    (hend : (s'.ledger.accounts x.key).isSome = true) (uiAmount : UInt8 → Nat → ℚ) :
    ∃ a m, s.ledger.accounts x.key = some a ∧ s.ledger.mints a.mint = some m ∧
      (x.Passes uiAmount tokens s.ledger s'.ledger ↔
        x.difference (uiAmount m.decimals a.amount)
          (uiAmount m.decimals (s'.ledger.balance x.key)) = tokens) := by
  obtain ⟨hl', hdecimals⟩ := h.readable findBump tokens
  rw [← hs'] at hl' hdecimals
  obtain ⟨wallet, mint, hkey⟩ := Script.checks_key hx
  obtain ⟨a, ha⟩ := Option.isSome_iff_exists.1 hstart
  obtain ⟨a', ha'⟩ := Option.isSome_iff_exists.1 hend
  obtain ⟨m, hm, -⟩ := h.ledger.mint_some _ _ ha
  obtain ⟨m', hm', hd⟩ := hdecimals _ _ hm
  -- both accounts are of the mint of the address
  have hmint : a'.mint = a.mint :=
    (hl'.associated _ _ _ _ (hkey ▸ ha')).trans (h.ledger.associated _ _ _ _ (hkey ▸ ha)).symm
  have hread : uiBalance uiAmount s.ledger x.key = some (uiAmount m.decimals a.amount) :=
    uiBalance_eq_some_iff.2 ⟨a, m, ha, hm, rfl⟩
  have hread' : uiBalance uiAmount s'.ledger x.key = some (uiAmount m.decimals a'.amount) :=
    uiBalance_eq_some_iff.2 ⟨a', m', ha', hmint ▸ hm', by rw [hd]⟩
  refine ⟨a, m, ha, hm, ?_⟩
  rw [Ledger.balance_of_some ha']
  simp [BalanceCheck.Passes, hread, hread']

/-- The comparisons tell whether the transaction went through, where the balances let them. Without
tokens there is nothing to tell. -/
theorem all_pass_iff
    (h : ScriptSetting avss avsMints programs tokenProgram pool r script before after s)
    (hfits : tokens * lamportsPerSol < 2 ^ 53)
    (hs' : s' = scriptRun findBump (script.tx tokenProgram pool r programs tokens) before after s)
    (hstart : ∀ x ∈ script.checks tokenProgram pool r, (s.ledger.accounts x.key).isSome = true)
    (hend : ∀ x ∈ script.checks tokenProgram pool r, (s'.ledger.accounts x.key).isSome = true)
    (uiAmount : UInt8 → Nat → ℚ) :
    (∀ x ∈ script.checks tokenProgram pool r, x.Passes uiAmount tokens s.ledger s'.ledger) ↔
      tokens = 0 ∨ ((∃ t, (script.tx tokenProgram pool r programs tokens).attempt findBump
          (run findBump s before) = .ok t) ∧
        ∀ x ∈ script.checks tokenProgram pool r, x.Legible uiAmount tokens s.ledger) := by
  cases htx : (script.tx tokenProgram pool r programs tokens).attempt findBump
      (run findBump s before) with
  | ok t =>
      have hlegible : ∀ x ∈ script.checks tokenProgram pool r,
          (x.Passes uiAmount tokens s.ledger s'.ledger ↔ x.Legible uiAmount tokens s.ledger) := by
        intro x hx
        obtain ⟨a, m, ha, hm, hiff⟩ := h.passes_iff hs' hx (hstart x hx) (hend x hx) uiAmount
        have hbalance := h.balance_of_ok hx hfits htx
        rw [← hs', Ledger.balance_of_some ha] at hbalance
        rw [hiff, hbalance]
        simp [BalanceCheck.Legible, ha, hm]
      rw [forall₂_congr hlegible]
      constructor
      · exact fun hall => Or.inr ⟨⟨t, rfl⟩, hall⟩
      · rintro (rfl | ⟨-, hall⟩)
        · intro x hx a ha m hm
          have hsame : x.expected 0 a.amount = a.amount := by simp [BalanceCheck.expected]
          rw [hsame, BalanceCheck.difference_same, Nat.cast_zero]
        · exact hall
  | error e =>
      -- nothing moved, and a difference of nothing is exact
      have hzero : ∀ x ∈ script.checks tokenProgram pool r,
          (x.Passes uiAmount tokens s.ledger s'.ledger ↔ tokens = 0) := by
        intro x hx
        obtain ⟨a, m, ha, hm, hiff⟩ := h.passes_iff hs' hx (hstart x hx) (hend x hx) uiAmount
        have hbalance := h.balance_of_error hx htx
        rw [← hs', Ledger.balance_of_some ha] at hbalance
        rw [hiff, hbalance, BalanceCheck.difference_same, eq_comm, Nat.cast_eq_zero]
      rw [forall₂_congr hzero]
      obtain ⟨x, hx⟩ := script.checks_nonempty tokenProgram pool r
      constructor
      · exact fun hall => Or.inl (hall x hx)
      · rintro (htokens | ⟨⟨t, ht⟩, -⟩)
        · exact fun _ _ => htokens
        · cases ht

end ScriptSetting

/-- Where nobody else moves the compared balances, a script ends well exactly when the accounts that
it reads are there before and after and either its transaction went through and each compared
balance lets the doubles show the number of tokens, or this number is zero. -/
theorem runScript_eq_ok_iff {uiAmount : UInt8 → Nat → ℚ} {before after : List Action}
    (h : ScriptSetting avss avsMints programs tokenProgram pool r script before after s) :
    runScript findBump uiAmount programs tokenProgram pool r tokens script before after s = .ok s' ↔
      s' = scriptRun findBump (script.tx tokenProgram pool r programs tokens) before after s ∧
        tokens * lamportsPerSol < 2 ^ 53 ∧
        (∀ x ∈ script.checks tokenProgram pool r, (s.ledger.accounts x.key).isSome = true) ∧
        (∀ x ∈ script.checks tokenProgram pool r, (s'.ledger.accounts x.key).isSome = true) ∧
        (tokens = 0 ∨ ((∃ t, (script.tx tokenProgram pool r programs tokens).attempt findBump
            (run findBump s before) = .ok t) ∧
          ∀ x ∈ script.checks tokenProgram pool r, x.Legible uiAmount tokens s.ledger)) := by
  obtain ⟨hl', -⟩ := h.readable findBump tokens
  simp only [runScript, bind_eq_ok_iff, require_eq_ok_iff, pure_eq_ok_iff, exists_const,
    uiBalance_isSome_iff h.ledger, uiBalance_isSome_iff hl']
  constructor
  · rintro ⟨hstart, hfits, hend, hpasses, rfl⟩
    exact ⟨rfl, hfits, hstart, hend, (h.all_pass_iff hfits rfl hstart hend uiAmount).1 hpasses⟩
  · rintro ⟨rfl, hfits, hstart, hend, hdone⟩
    exact ⟨hstart, hfits, hend, (h.all_pass_iff hfits rfl hstart hend uiAmount).2 hdone, rfl⟩

end Run

namespace Sample

/-- How a node computes its answer: both numbers become doubles and are divided. -/
def uiAmount (decimals : UInt8) (amount : Nat) : ℚ :=
  Double.div (Double.round amount) (Double.round ((10 ^ decimals.toNat : Nat) : ℚ))

theorem uiAmount_whole {j : Nat} (h : j * lamportsPerSol < 2 ^ 53) :
    uiAmount 9 (j * lamportsPerSol) = j := by
  have hj : j < 2 ^ 53 := (Nat.le_mul_of_pos_right j (by decide)).trans_lt h
  have hten : (10 ^ (9 : UInt8).toNat : Nat) = lamportsPerSol := rfl
  have hpos : (lamportsPerSol : ℚ) ≠ 0 := Nat.cast_ne_zero.2 (by decide)
  rw [uiAmount, hten, Double.round_natCast h, Double.round_natCast (by decide), Double.div,
    Nat.cast_mul, mul_div_cancel_right₀ _ hpos, Double.round_natCast hj]

/-- The user has deposited a hundred whole tokens and the pool has delegated sixty. -/
def funded : State where
  ledger := .ofLists
    [(inputMint, mintOf authority (100 * lamportsPerSol)),
      (outputMint, mintOf pool (100 * lamportsPerSol)),
      (avsMint, mintOf avs (60 * lamportsPerSol))]
    [account user inputMint 0, account user outputMint (100 * lamportsPerSol),
      account pool inputMint (40 * lamportsPerSol), account pool avsMint (60 * lamportsPerSol),
      account avs inputMint (60 * lamportsPerSol)]
  pools k := if k = pool then some (record 1000) else none

/-- The authority raises the limit meanwhile. -/
def raise : Action :=
  .call registry.programs (signedBy authority) (.updateMintLimit ⟨authority, pool⟩ 2000)

theorem funded_setting : ScriptSetting registry.addresses registry.mints registry.programs
    tokenProgram pool (record 1000) (.withdraw user) [raise] [] funded where
  honest := registry.honest
  signer := rfl
  notAvs := user_apart
  mints := by decide
  asset := by decide
  others := by
    intro a ha
    obtain rfl : a = raise := by simpa using ha
    exact ⟨signedBy_outside rfl, registry.honest, fun x _ => rfl⟩
  ledger := ledgerSound_ofLists (by decide) (by decide) (by decide)
  feeFree := feeFree_ofLists (by decide)

/-- The script that withdraws four tokens ends well, with another transaction before its own. -/
theorem withdrawal_checked :
    runScript findBump uiAmount registry.programs tokenProgram pool (record 1000) 4 (.withdraw user)
        [raise] [] funded =
      .ok (scriptRun findBump
        ((Script.withdraw user).tx tokenProgram pool (record 1000) registry.programs 4) [raise] []
        funded) := by
  obtain ⟨t, ht, -⟩ : ∃ t, ((Script.withdraw user).tx tokenProgram pool (record 1000)
      registry.programs 4).attempt findBump (run findBump funded [raise]) = .ok t ∧ true = true :=
    exists_eq_ok (by decide)
  refine (runScript_eq_ok_iff funded_setting).2 ⟨rfl, by decide, by decide, by decide,
    Or.inr ⟨⟨t, ht⟩, ?_⟩⟩
  have hread : ∀ j ≤ 104, uiAmount 9 (j * lamportsPerSol) = j := fun j hj =>
    uiAmount_whole ((Nat.mul_le_mul_right _ hj).trans_lt (by decide))
  intro x hx
  simp only [Script.checks, List.mem_cons, List.not_mem_nil, or_false] at hx
  rcases hx with rfl | rfl
  · exact BalanceCheck.legible_of_whole (n := 40) (fun j hj => hread j (by omega)) (by decide)
      (by decide) (fun _ => by decide) (by decide)
  · exact BalanceCheck.legible_of_whole (n := 100) (fun j hj => hread j (by omega)) (by decide)
      (by decide) (fun _ => by decide) (by decide)

end Sample

/-! ## Handing the authority on -/

/-- What the others do before the record is read and before the transfer is processed, and the key
that the authority goes to. -/
structure Leg where
  beforeRead : List Action
  beforeSend : List Action
  newAuthority : Pubkey

/-- The record is fetched and its authority compared with the key. -/
def assertAuthority (pool key : Pubkey) (s : State) : Except ScriptError Unit := do
  let r ← orError .account (s.pools pool)
  require (r.delegateAuthority = key) .assertion

/-- The transaction that transfers the authority; the old one is its only signer. -/
def transferTo (programs : Programs) (pool authority newAuthority : Pubkey) : Action :=
  let call := Call.transferDelegateAuthority ⟨authority, pool, newAuthority⟩
  .call programs (transaction call.metas) call

/-- The authority is handed on along the legs and checked at the end. -/
def handOn (findBump : Pubkey → UInt8) (programs : Programs) (pool : Pubkey) :
    Pubkey → List Leg → List Action → State → Except ScriptError State
  | authority, [], beforeEnd, s => do
      let s := run findBump s beforeEnd
      assertAuthority pool authority s
      pure s
  | authority, leg :: legs, beforeEnd, s => do
      let s := run findBump s leg.beforeRead
      assertAuthority pool authority s
      let s := run findBump s leg.beforeSend
      let s ← mapError .transaction
        ((transferTo programs pool authority leg.newAuthority).attempt findBump s)
      handOn findBump programs pool leg.newAuthority legs beforeEnd s

/-- All transactions in their order. -/
def handOnActions (programs : Programs) (pool : Pubkey) :
    Pubkey → List Leg → List Action → List Action
  | _, [], beforeEnd => beforeEnd
  | authority, leg :: legs, beforeEnd =>
      leg.beforeRead ++ (leg.beforeSend ++ transferTo programs pool authority leg.newAuthority ::
        handOnActions programs pool leg.newAuthority legs beforeEnd)

/-- The key that has the authority in the end. -/
def lastAuthority : Pubkey → List Leg → Pubkey
  | authority, [] => authority
  | _, leg :: legs => lastAuthority leg.newAuthority legs

/-- The others never sign for the authority of the moment. -/
def Undisturbed : Pubkey → List Leg → List Action → Prop
  | authority, [], beforeEnd => ∀ a ∈ beforeEnd, a.privileges.signer authority = false
  | authority, leg :: legs, beforeEnd =>
      (∀ a ∈ leg.beforeRead, a.privileges.signer authority = false) ∧
        (∀ a ∈ leg.beforeSend, a.privileges.signer authority = false) ∧
          Undisturbed leg.newAuthority legs beforeEnd

section HandOn

variable {findBump : Pubkey → UInt8} {s s' : State} {pool : Pubkey} {r : LRTPool}

/-- Without a signature of its authority a record stays as it is. -/
theorem attempt_record {a : Action} (hsig : a.privileges.signer r.delegateAuthority = false)
    (hr : s.pools pool = some r) (h : a.attempt findBump s = .ok s') : s'.pools pool = some r := by
  cases a with
  | call programs p c => exact recordChange_authority (execute_pools h) hsig hr rfl
  | token p program ix =>
      obtain ⟨-, -, l, -, rfl⟩ := attempt_token_iff.1 h
      exact hr
  | create p key wallet tokenProgram mint =>
      obtain ⟨-, -, m, -, -, -, -, rfl⟩ := attempt_create_iff.1 h
      exact hr

theorem run_record {as : List Action}
    (has : ∀ a ∈ as, a.privileges.signer r.delegateAuthority = false)
    (hr : s.pools pool = some r) : (run findBump s as).pools pool = some r :=
  Rollback.run_invariant (I := fun t => t.pools pool = some r)
    (fun a ha _ _ ht h => attempt_record (has a ha) ht h) hr

theorem assertAuthority_eq_ok (hr : s.pools pool = some r) :
    assertAuthority pool r.delegateAuthority s = .ok () := by
  have hok : ∃ x, orError ScriptError.account (s.pools pool) = .ok x ∧
      require (x.delegateAuthority = r.delegateAuthority) ScriptError.assertion = .ok () :=
    ⟨r, (orError_eq_ok_iff ..).2 hr, (require_eq_ok_iff ..).2 rfl⟩
  exact (bind_eq_ok_iff ..).2 hok

/-- The holder of the authority can always transfer it. -/
theorem transferTo_eq_ok (programs : Programs) (findBump : Pubkey → UInt8)
    (hr : s.pools pool = some r) (hseed : pool = poolAddress r.outputTokenMint r.bump)
    (newAuthority : Pubkey) :
    (transferTo programs pool r.delegateAuthority newAuthority).attempt findBump s =
      .ok (s.setPool pool { r with delegateAuthority := newAuthority }) := by
  refine (transferDelegateAuthority_eq_ok_iff ..).2 ⟨r, ?_, ?_, ?_, hr, hseed, rfl, rfl⟩
  · exact transaction_signer (m := accountMeta r.delegateAuthority true) List.mem_cons_self rfl
  · exact transaction_writable (m := accountMeta r.delegateAuthority true) List.mem_cons_self rfl
  · exact transaction_writable (m := accountMeta pool false)
      (List.mem_cons_of_mem _ List.mem_cons_self) rfl

/-- Along any chain of keys, whatever others do without the signature of the authority of the
moment: every check and every transfer succeeds. -/
theorem handOn_succeeds (programs : Programs) (legs : List Leg) (beforeEnd : List Action)
    (hs : RecordsAtHome findBump s) (hr : s.pools pool = some r)
    (hothers : Undisturbed r.delegateAuthority legs beforeEnd) :
    ∃ s', handOn findBump programs pool r.delegateAuthority legs beforeEnd s = .ok s' ∧
      s' = run findBump s (handOnActions programs pool r.delegateAuthority legs beforeEnd) ∧
      s'.pools pool =
        some { r with delegateAuthority := lastAuthority r.delegateAuthority legs } := by
  induction legs generalizing s r with
  | nil =>
      have hend : (run findBump s beforeEnd).pools pool = some r := run_record hothers hr
      refine ⟨_, ?_, rfl, hend⟩
      rw [handOn]
      simp only [assertAuthority_eq_ok hend]
      rfl
  | cons leg legs ih =>
      obtain ⟨hread, hsend, hrest⟩ := hothers
      have hr₁ : (run findBump s leg.beforeRead).pools pool = some r := run_record hread hr
      have hr₂ : (run findBump (run findBump s leg.beforeRead) leg.beforeSend).pools pool =
          some r := run_record hsend hr₁
      have hs₂ : RecordsAtHome findBump
          (run findBump (run findBump s leg.beforeRead) leg.beforeSend) :=
        run_recordsAtHome _ (run_recordsAtHome _ hs)
      have htransfer := transferTo_eq_ok programs findBump hr₂ (hs₂ pool r hr₂).1 leg.newAuthority
      -- the chain goes on from the record with the new authority
      obtain ⟨s', hok, hrun, hlast⟩ := ih
        (r := { r with delegateAuthority := leg.newAuthority })
        (attempt_recordsAtHome hs₂ htransfer) (by rw [State.setPool_pools, if_pos rfl]) hrest
      refine ⟨s', ?_, ?_, hlast⟩
      · rw [handOn]
        simp only [assertAuthority_eq_ok hr₁, htransfer]
        exact hok
      · have happly := Rollback.apply_of_ok htransfer
        simp only [run] at happly hrun ⊢
        rw [hrun, handOnActions, Rollback.run_append, Rollback.run_append, Rollback.run_cons,
          happly]

end HandOn

/-- `main` of `scripts/transfer-delegate-authority.ts`: to the new key and back. -/
def transferAndBack (findBump : Pubkey → UInt8) (programs : Programs)
    (pool authority newAuthority : Pubkey) (there back : List Action × List Action)
    (beforeEnd : List Action) : State → Except ScriptError State :=
  handOn findBump programs pool authority
    [⟨there.1, there.2, newAuthority⟩, ⟨back.1, back.2, authority⟩] beforeEnd

namespace Sample

/-- The authority goes to another key and back while the user deposits and withdraws. -/
theorem authority_back :
    ∃ s', transferAndBack findBump registry.programs pool authority (.keypair 3)
        ([deposit 10], []) ([withdrawal 4], [deposit 20]) [] (opened 1000) = .ok s' ∧
      s'.pools pool = some (record 1000) := by
  have hothers : Undisturbed authority
      [⟨[deposit 10], [], .keypair 3⟩, ⟨[withdrawal 4], [deposit 20], authority⟩] [] := by
    simp only [Undisturbed]
    decide
  have hhome : RecordsAtHome findBump (opened 1000) :=
    attempt_recordsAtHome (fun _ _ h => by cases h) (initialization_eq 1000)
  have hr : (opened 1000).pools pool = some (record 1000) := rfl
  obtain ⟨s', hok, -, hlast⟩ := handOn_succeeds registry.programs
    [⟨[deposit 10], [], .keypair 3⟩, ⟨[withdrawal 4], [deposit 20], authority⟩] [] hhome hr hothers
  exact ⟨s', hok, hlast⟩

end Sample

end AdraLrt
