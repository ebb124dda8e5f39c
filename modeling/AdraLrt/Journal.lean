import AdraLrt.Backing

/-!
# The journal of a run

With honest AVSs every transaction, whether an instruction of the program or of a token program, has
a fixed effect on every balance and every supply, read off its accounts and its amount: there is no
price in the program that an earlier transaction could move. So the balances and supplies at the end
of a run are those of the start with the effects of the successful transactions added up
(`run_journal`), and the order in which these came does not show (`run_order_irrelevant`). What the
order does decide is which transactions succeed.
-/

set_option autoImplicit false

namespace AdraLrt

open TokenLedger Checked

namespace Action

/-- What a successful transaction takes from the account at `k`. -/
def debited (a : Action) (k : Pubkey) : Nat :=
  match a with
  | call _ _ c => c.debited k
  | token _ _ ix => ix.debited k
  | create _ _ _ _ _ => 0

/-- What it adds there. -/
def credited (a : Action) (k : Pubkey) : Nat :=
  match a with
  | call _ _ c => c.credited k
  | token _ _ ix => ix.credited k
  | create _ _ _ _ _ => 0

/-- What it burns of the mint `m`. -/
def burned (a : Action) (m : Pubkey) : Nat :=
  match a with
  | call _ _ c => c.burned m
  | token _ _ ix => ix.burned m
  | create _ _ _ _ _ => 0

/-- What it mints of it. -/
def minted (a : Action) (m : Pubkey) : Nat :=
  match a with
  | call _ _ c => c.minted m
  | token _ _ ix => ix.minted m
  | create _ _ _ _ _ => 0

end Action

section Attempt

variable {avss : Set Pubkey} {avsMints : Finset Pubkey} {findBump : Pubkey → UInt8} {a : Action}
  {s s' : State}

theorem attempt_balance_tally (hu : a.Uses (HonestPrograms avss avsMints)) (hf : s.ledger.FeeFree)
    (h : a.attempt findBump s = .ok s') (k : Pubkey) :
    s'.ledger.balance k + a.debited k = s.ledger.balance k + a.credited k := by
  cases a with
  -- with an honest AVS the call to it moves what the instruction says
  | call programs p c => exact execute_balance h hu (feeFree_call hf c) k
  | token p program ix =>
      obtain ⟨-, -, l, hl, rfl⟩ := attempt_token_iff.1 h
      exact process_balance hf ((exec_eq_ok_iff ..).1 hl).2 k
  | create p key wallet tokenProgram mint =>
      obtain ⟨-, -, m, -, hnone, -, -, rfl⟩ := attempt_create_iff.1 h
      exact Ledger.balance_create hnone tokenProgram mint wallet k

theorem attempt_supply_tally (hu : a.Uses (HonestPrograms avss avsMints))
    (h : a.attempt findBump s = .ok s') (m : Pubkey) :
    s'.ledger.supply m + a.burned m = s.ledger.supply m + a.minted m := by
  cases a with
  | call programs p c => exact execute_supply h hu m
  | token p program ix =>
      obtain ⟨-, -, l, hl, rfl⟩ := attempt_token_iff.1 h
      exact process_supply ((exec_eq_ok_iff ..).1 hl).2 m
  | create p key wallet tokenProgram mint =>
      obtain ⟨-, -, x, -, -, -, -, rfl⟩ := attempt_create_iff.1 h
      rfl

end Attempt

section Journal

variable {avss : Set Pubkey} {avsMints : Finset Pubkey} {findBump : Pubkey → UInt8}
  {as bs : List Action} {s : State}

variable (findBump) in
/-- The balances and supplies at the end are those of the start with the effects of the successful
transactions added up. -/
theorem run_journal (has : ∀ a ∈ as, a.Uses (HonestPrograms avss avsMints))
    (hf : s.ledger.FeeFree) :
    (∀ k, (run findBump s as).ledger.balance k +
        ((committed findBump s as).map fun a => a.debited k).sum =
      s.ledger.balance k + ((committed findBump s as).map fun a => a.credited k).sum) ∧
    ∀ m, (run findBump s as).ledger.supply m +
        ((committed findBump s as).map fun a => a.burned m).sum =
      s.ledger.supply m + ((committed findBump s as).map fun a => a.minted m).sum := by
  -- a fee would be taken on the way, so that must not come in
  have hfree : ∀ a ∈ as, ∀ t t' : State, t.ledger.FeeFree → a.attempt findBump t = .ok t' →
      t'.ledger.FeeFree :=
    fun a ha t t' ht h => attempt_feeFree ht ((has a ha).mono fun _ => HonestPrograms.fundsOnly) h
  constructor
  · intro k
    exact Rollback.run_tally (X := fun t : State => t.ledger.balance k) hfree
      (fun a ha t t' ht h => attempt_balance_tally (has a ha) ht h k) hf
  · intro m
    exact Rollback.run_tally (X := fun t : State => t.ledger.supply m) hfree
      (fun a ha t t' _ h => attempt_supply_tally (has a ha) h m) hf

/-- Two runs from one state in which the same transactions succeed, in whatever order and with
whatever others failing in between, end with the same balances and the same supplies. -/
theorem run_order_irrelevant (has : ∀ a ∈ as, a.Uses (HonestPrograms avss avsMints))
    (hbs : ∀ a ∈ bs, a.Uses (HonestPrograms avss avsMints)) (hf : s.ledger.FeeFree)
    (hperm : (committed findBump s as).Perm (committed findBump s bs)) :
    (∀ k, (run findBump s as).ledger.balance k = (run findBump s bs).ledger.balance k) ∧
      ∀ m, (run findBump s as).ledger.supply m = (run findBump s bs).ledger.supply m := by
  obtain ⟨hbalance, hsupply⟩ := run_journal findBump has hf
  obtain ⟨hbalance', hsupply'⟩ := run_journal findBump hbs hf
  constructor
  · intro k
    have h := hbalance k
    have h' := hbalance' k
    rw [(hperm.map fun a => a.debited k).sum_eq, (hperm.map fun a => a.credited k).sum_eq] at h
    omega
  · intro m
    have h := hsupply m
    have h' := hsupply' m
    rw [(hperm.map fun a => a.burned m).sum_eq, (hperm.map fun a => a.minted m).sum_eq] at h
    omega

end Journal

namespace Sample

/-- Two days with the same successful transactions. On the second the user tries to withdraw before
anything was deposited, and the delegation comes last. -/
def oneDay : List Action := [deposit 80, delegate 50, withdrawal 20]

def otherDay : List Action := [withdrawal 20, deposit 80, withdrawal 20, delegate 50]

theorem days_uses : ∀ a, a ∈ oneDay ∨ a ∈ otherDay →
    a.Uses (HonestPrograms registry.addresses registry.mints) := by
  intro a ha
  simp only [oneDay, otherDay, List.mem_cons, List.not_mem_nil, or_false] at ha
  rcases ha with (rfl | rfl | rfl) | (rfl | rfl | rfl | rfl)
  all_goals exact registry.honest

theorem days_committed :
    committed findBump (opened 1000) oneDay = [deposit 80, delegate 50, withdrawal 20] ∧
      committed findBump (opened 1000) otherDay = [deposit 80, withdrawal 20, delegate 50] :=
  ⟨rfl, rfl⟩

/-- Both days end with the same balances and supplies. -/
theorem days_agree :
    (∀ k, (run findBump (opened 1000) oneDay).ledger.balance k =
      (run findBump (opened 1000) otherDay).ledger.balance k) ∧
    ∀ m, (run findBump (opened 1000) oneDay).ledger.supply m =
      (run findBump (opened 1000) otherDay).ledger.supply m := by
  refine run_order_irrelevant (fun a ha => days_uses a (Or.inl ha))
    (fun a ha => days_uses a (Or.inr ha)) ledger_feeFree ?_
  rw [days_committed.1, days_committed.2]
  exact (List.Perm.swap ..).cons _

end Sample

end AdraLrt
