import AdraLrt.TokenLedger.Conservation
import AdraLrt.TokenLedger.Origin

/-!
# Emptying an account in the course of a run

Whoever has the signature of the owner of a token account can burn what is in it. The account can
also be emptied within a run that does other things: every run has one beside it that ends with the
account empty and with all other accounts the same (`exists_drained`). Only an account whose mint is
out of reach and that has no other account to pay to keeps its funds (`reach_lone`).

The ledger of the second run is a `Shadow` of the first. An instruction that takes from the account
has the consent of its owner, who can burn the rest right after it. Any other instruction is carried
over to the shadow: it is left out where it only changes the account, a payment into the account
becomes a burn, and all else is repeated.
-/

set_option autoImplicit false

namespace TokenLedger

open Checked

variable {K : Type} [DecidableEq K]

/-- The second ledger has nothing in the account at `j` and all other accounts of the first. Its
mints are the same but for lower supplies. -/
structure Shadow (j : K) (l m : Ledger K) : Prop where
  account : ∀ k, k ≠ j → m.accounts k = l.accounts k
  empty : m.balance j = 0
  mint : ∀ k, ∃ n ≤ l.supply k, m.mints k = (l.mints k).map (Mint.withSupply · n)

section Shadow

variable {j k : K} {l l' m : Ledger K} {x y : Mint K} {n : Nat}

omit [DecidableEq K] in
theorem Shadow.mint_some (h : Shadow j l m) (hx : l.mints k = some x) :
    ∃ n ≤ x.supply, m.mints k = some (x.withSupply n) := by
  obtain ⟨n, hn, hm⟩ := h.mint k
  rw [Ledger.supply_of_some hx] at hn
  exact ⟨n, hn, by rw [hm, hx]; rfl⟩

omit [DecidableEq K] in
theorem Shadow.mint_none (h : Shadow j l m) (hx : l.mints k = none) : m.mints k = none := by
  obtain ⟨n, -, hm⟩ := h.mint k
  rw [hm, hx]
  rfl

omit [DecidableEq K] in
theorem Shadow.alike (h : Shadow j l m) : MintsAlike l m := by
  intro k
  obtain ⟨n, -, hm⟩ := h.mint k
  rw [hm, Option.map_map]
  rfl

/-- The same write to another account. -/
theorem Shadow.setAccount (h : Shadow j l m) (hk : k ≠ j) (b : Option (TokenAccount K)) :
    Shadow j (l.setAccount k b) (m.setAccount k b) where
  account i hi := by
    simp only [Ledger.setAccount_accounts, h.account i hi]
  empty := by
    rw [← h.empty]
    exact Ledger.balance_congr (by simp [hk.symm])
  mint := h.mint

/-- What is written to the account itself does not matter. -/
theorem Shadow.setAccount_self (h : Shadow j l m) (b : Option (TokenAccount K)) :
    Shadow j (l.setAccount j b) m where
  account i hi := by
    rw [h.account i hi, Ledger.setAccount_accounts, if_neg hi]
  empty := h.empty
  mint := h.mint

/-- The same write to a mint, with a lower supply. -/
theorem Shadow.setMint (h : Shadow j l m) (hn : n ≤ x.supply) :
    Shadow j (l.setMint k x) (m.setMint k (x.withSupply n)) where
  account := h.account
  empty := h.empty
  mint i := by
    rw [Ledger.supply_setMint, Ledger.setMint_mints, Ledger.setMint_mints]
    split
    · exact ⟨n, hn, rfl⟩
    · exact h.mint i

/-- The supply of the first ledger may rise. -/
theorem Shadow.raise (h : Shadow j l m) (hx : l.mints k = some x) (hn : x.supply ≤ n) :
    Shadow j (l.setMint k (x.withSupply n)) m where
  account := h.account
  empty := h.empty
  mint i := by
    rw [Ledger.supply_setMint, Ledger.setMint_mints]
    split
    · next hi =>
        obtain ⟨n', hn', hm⟩ := h.mint_some hx
        exact ⟨n', hn'.trans hn, by rw [hi, hm]; rfl⟩
    · exact h.mint i

/-- The supply of the second may fall. -/
theorem Shadow.lower (h : Shadow j l m) (hy : m.mints k = some y) (hn : n ≤ y.supply) :
    Shadow j l (m.setMint k (y.withSupply n)) where
  account := h.account
  empty := h.empty
  mint i := by
    rw [Ledger.setMint_mints]
    split
    · next hi =>
        obtain ⟨n', hn', hm⟩ := h.mint i
        rw [hi] at hn' hm ⊢
        rw [hy] at hm
        obtain ⟨x, hx, rfl⟩ := Option.map_eq_some_iff.1 hm.symm
        exact ⟨n, hn.trans hn', by rw [hx]; rfl⟩
    · exact h.mint i

end Shadow

/-! ## Instructions on a shadow -/

/-- The addresses whose account, or whose mint in a change of authority, the instruction is about.
-/
def TokenIx.touched : TokenIx K → List K
  | .initializeMint mint _ _ _ => [mint]
  | .initializeAccount account _ _ => [account]
  | .transfer source destination _ _ _ => [source, destination]
  | .approve source _ _ _ => [source]
  | .revoke source _ => [source]
  | .setAuthority owned _ _ => [owned]
  | .mintTo _ destination _ _ => [destination]
  | .burn source _ _ _ => [source]
  | .closeAccount account _ _ => [account]
  | .freezeAccount account _ _ => [account]
  | .thawAccount account _ _ => [account]

/-- The instruction takes from the account at `j`. -/
def TokenIx.TakesFrom (j : K) : TokenIx K → Prop
  | .transfer source destination _ _ _ => source = j ∧ destination ≠ j
  | .burn source _ _ _ => source = j
  | _ => False

section Replay

variable {q : Privileges K} {j program : K} {ix : TokenIx K} {l l' m : Ledger K}

/-- An instruction that is not about the account is repeated. -/
theorem Shadow.process (hs : Shadow j l m) (hc : m.Conserved) (hj : j ∉ ix.touched)
    (h : process program ix l = .ok l') :
    ∃ m', process program ix m = .ok m' ∧ Shadow j l' m' := by
  cases ix with
  | initializeMint mint decimals mintAuthority freezeAuthority =>
      have hne : mint ≠ j := by simpa [TokenIx.touched, eq_comm] using hj
      obtain ⟨hmint, hnone, rfl⟩ := (processInitializeMint_eq_ok_iff ..).1 h
      exact ⟨_, (processInitializeMint_eq_ok_iff ..).2 ⟨hs.mint_none hmint,
        (hs.account _ hne).trans hnone, rfl⟩, hs.setMint (Nat.le_refl 0)⟩
  | initializeAccount account mint owner =>
      have hne : account ≠ j := by simpa [TokenIx.touched, eq_comm] using hj
      obtain ⟨x, hmint, hnone, hx, hp, rfl⟩ := (processInitializeAccount_eq_ok_iff ..).1 h
      obtain ⟨n, -, hx'⟩ := hs.mint_some hx
      exact ⟨_, (processInitializeAccount_eq_ok_iff ..).2 ⟨_, hs.mint_none hmint,
        (hs.account _ hne).trans hnone, hx', hp, rfl⟩, hs.setAccount hne _⟩
  | transfer source destination authority amount checked =>
      obtain ⟨hsource, hdestination⟩ : source ≠ j ∧ destination ≠ j := by
        simpa [TokenIx.touched, eq_comm] using hj
      obtain ⟨src, dst, fee, h⟩ := (processTransfer_eq_ok_iff ..).1 h
      have hsrc := (hs.account _ hsource).trans h.source_some
      have hdst := (hs.account _ hdestination).trans h.destination_some
      have hfee := transferFee_of_alike hs.alike h.fee_ok
      have hres := h.result
      by_cases hself : source = destination
      · rw [if_pos hself] at hres
        refine ⟨m, (processTransfer_eq_ok_iff ..).2 ⟨src, dst, fee, { h with
          source_some := hsrc, destination_some := hdst, fee_ok := hfee, result := ?_ }⟩, ?_⟩
        · rw [if_pos hself]
        · rw [hres]
          exact hs
      · rw [if_neg hself] at hres
        obtain ⟨hle, hadd, rfl⟩ := hres
        refine ⟨_, (processTransfer_eq_ok_iff ..).2 ⟨src, dst, fee, { h with
          source_some := hsrc, destination_some := hdst, fee_ok := hfee, result := ?_ }⟩,
          (hs.setAccount hsource _).setAccount hdestination _⟩
        rw [if_neg hself]
        exact ⟨hle, hadd, rfl⟩
  | approve source delegate authority amount =>
      have hne : source ≠ j := by simpa [TokenIx.touched, eq_comm] using hj
      obtain ⟨a, ha, hp, hf, ho, rfl⟩ := (processApprove_eq_ok_iff ..).1 h
      exact ⟨_, (processApprove_eq_ok_iff ..).2 ⟨a, (hs.account _ hne).trans ha, hp, hf, ho, rfl⟩,
        hs.setAccount hne _⟩
  | revoke source authority =>
      have hne : source ≠ j := by simpa [TokenIx.touched, eq_comm] using hj
      obtain ⟨a, ha, hp, hf, ho, rfl⟩ := (processRevoke_eq_ok_iff ..).1 h
      exact ⟨_, (processRevoke_eq_ok_iff ..).2 ⟨a, (hs.account _ hne).trans ha, hp, hf, ho, rfl⟩,
        hs.setAccount hne _⟩
  | setAuthority owned authority change =>
      have hne : owned ≠ j := by simpa [TokenIx.touched, eq_comm] using hj
      have hset := (processSetAuthority_eq_ok_iff program owned authority l l' change).1 h
      have hset' := fun m' => (processSetAuthority_eq_ok_iff program owned authority m m' change).2
      cases change with
      | mintTokens new =>
          obtain ⟨x, hx, hp, hauth, rfl⟩ := hset
          obtain ⟨n, hn, hx'⟩ := hs.mint_some hx
          exact ⟨_, hset' _ ⟨_, hx', hp, hauth, rfl⟩,
            hs.setMint (x := { x with mintAuthority := new }) hn⟩
      | freezeAccount new =>
          obtain ⟨x, hx, hp, hauth, rfl⟩ := hset
          obtain ⟨n, hn, hx'⟩ := hs.mint_some hx
          exact ⟨_, hset' _ ⟨_, hx', hp, hauth, rfl⟩,
            hs.setMint (x := { x with freezeAuthority := new }) hn⟩
      | accountOwner new =>
          obtain ⟨a, ha, hp, hf, ho, rfl⟩ := hset
          exact ⟨_, hset' _ ⟨a, (hs.account _ hne).trans ha, hp, hf, ho, rfl⟩,
            hs.setAccount hne _⟩
      | closeAccount new =>
          obtain ⟨a, ha, hp, hf, ho, rfl⟩ := hset
          exact ⟨_, hset' _ ⟨a, (hs.account _ hne).trans ha, hp, hf, ho, rfl⟩,
            hs.setAccount hne _⟩
  | mintTo mint destination authority amount =>
      have hne : destination ≠ j := by simpa [TokenIx.touched, eq_comm] using hj
      obtain ⟨a, x, ha, hp, hf, hm, hx, hxp, hauth, hadd, hmax, rfl⟩ :=
        (processMintTo_eq_ok_iff ..).1 h
      obtain ⟨n, hn, hx'⟩ := hs.mint_some hx
      refine ⟨_, (processMintTo_eq_ok_iff ..).2 ⟨a, _, (hs.account _ hne).trans ha, hp, hf, hm, hx',
        hxp, hauth, hadd, (Nat.add_le_add_right hn amount).trans hmax, rfl⟩, ?_⟩
      exact (hs.setAccount hne _).setMint (x := x.withSupply (x.supply + amount))
        (Nat.add_le_add_right hn amount)
  | burn source mint authority amount =>
      have hne : source ≠ j := by simpa [TokenIx.touched, eq_comm] using hj
      obtain ⟨a, x, ha, hp, hx, hxp, hf, hfunds, hm, hmay, hle, rfl⟩ :=
        (processBurn_eq_ok_iff ..).1 h
      obtain ⟨n, hn, hx'⟩ := hs.mint_some hx
      have ha' := (hs.account _ hne).trans ha
      -- the lower supply still covers what is burned
      have hcover := hc.balance_le ha'
      rw [← hm, Ledger.supply_of_some hx', Mint.withSupply_supply] at hcover
      refine ⟨_, (processBurn_eq_ok_iff ..).2 ⟨a, _, ha', hp, hx', hxp, hf, hfunds, hm, hmay,
        hfunds.trans hcover, rfl⟩, ?_⟩
      exact (hs.setAccount hne _).setMint (x := x.withSupply (x.supply - amount))
        (Nat.sub_le_sub_right hn amount)
  | closeAccount account destination authority =>
      have hne : account ≠ j := by simpa [TokenIx.touched, eq_comm] using hj
      obtain ⟨a, hd, ha, hp, h0, hw, hauth, rfl⟩ := (processCloseAccount_eq_ok_iff ..).1 h
      exact ⟨_, (processCloseAccount_eq_ok_iff ..).2 ⟨a, hd, (hs.account _ hne).trans ha, hp, h0,
        hw, hauth, rfl⟩, hs.setAccount hne _⟩
  | freezeAccount account mint authority =>
      have hne : account ≠ j := by simpa [TokenIx.touched, eq_comm] using hj
      obtain ⟨a, x, ha, hp, hf, hm, hx, hxp, hauth, rfl⟩ := (processToggleFreeze_eq_ok_iff ..).1 h
      obtain ⟨n, -, hx'⟩ := hs.mint_some hx
      exact ⟨_, (processToggleFreeze_eq_ok_iff ..).2 ⟨a, _, (hs.account _ hne).trans ha, hp, hf, hm,
        hx', hxp, hauth, rfl⟩, hs.setAccount hne _⟩
  | thawAccount account mint authority =>
      have hne : account ≠ j := by simpa [TokenIx.touched, eq_comm] using hj
      obtain ⟨a, x, ha, hp, hf, hm, hx, hxp, hauth, rfl⟩ := (processToggleFreeze_eq_ok_iff ..).1 h
      obtain ⟨n, -, hx'⟩ := hs.mint_some hx
      exact ⟨_, (processToggleFreeze_eq_ok_iff ..).2 ⟨a, _, (hs.account _ hne).trans ha, hp, hf, hm,
        hx', hxp, hauth, rfl⟩, hs.setAccount hne _⟩

/-- An instruction that is about the account but takes nothing from it is left out, unless it is a
payment into the account, which becomes a burn. -/
theorem Shadow.absorb (hs : Shadow j l m) (hc : m.Conserved) (hj : j ∈ ix.touched)
    (htakes : ¬ ix.TakesFrom j) (hno : l'.mints j = none) (hl : l.Minted)
    (hmint : ∀ a, l.accounts j = some a → q.available a.mint = true ∧ q.writable a.mint = true)
    (h : exec q program ix l = .ok l') :
    ∃ cs m', (∀ c ∈ cs, c.1 = program) ∧ execAll q cs m = .ok m' ∧ Shadow j l' m' := by
  -- an instruction that is left out has written to the account only
  have hleft : Shadow j l' m →
      ∃ cs m', (∀ c ∈ cs, c.1 = program) ∧ execAll q cs m = .ok m' ∧ Shadow j l' m' :=
    fun hs' => ⟨[], m, by simp, rfl, hs'⟩
  obtain ⟨hadm, h⟩ := (exec_eq_ok_iff ..).1 h
  cases ix with
  | initializeMint mint decimals mintAuthority freezeAuthority =>
      obtain rfl : j = mint := by simpa [TokenIx.touched] using hj
      obtain ⟨-, -, rfl⟩ := (processInitializeMint_eq_ok_iff ..).1 h
      simp at hno
  | initializeAccount account mint owner =>
      obtain rfl : j = account := by simpa [TokenIx.touched] using hj
      obtain ⟨x, -, -, -, -, rfl⟩ := (processInitializeAccount_eq_ok_iff ..).1 h
      exact hleft (hs.setAccount_self _)
  | transfer source destination authority amount checked =>
      obtain ⟨src, dst, fee, ht⟩ := (processTransfer_eq_ok_iff ..).1 h
      have hres := ht.result
      by_cases hself : source = destination
      · rw [if_pos hself] at hres
        exact hleft (hres ▸ hs)
      · rw [if_neg hself] at hres
        obtain ⟨-, -, rfl⟩ := hres
        have hsource : source ≠ j := by
          rintro rfl
          exact htakes ⟨rfl, Ne.symm hself⟩
        obtain rfl : j = destination := by simpa [TokenIx.touched, hsource.symm] using hj
        obtain ⟨hav, hw⟩ := hmint dst ht.destination_some
        rw [← ht.mint_eq] at hav hw
        obtain ⟨x, hx, hxp⟩ := hl _ src ht.source_some
        obtain ⟨n, hn, hx'⟩ := hs.mint_some hx
        have hsrc := (hs.account _ hsource).trans ht.source_some
        have hcover := hc.balance_le hsrc
        rw [Ledger.supply_of_some hx', Mint.withSupply_supply] at hcover
        have hfunds := ht.funds
        have hburn : processBurn program source src.mint authority amount m = .ok _ :=
          (processBurn_eq_ok_iff ..).2 ⟨src, _, hsrc, ht.source_program, hx',
            hxp.trans ht.source_program, ht.source_thawed, hfunds, rfl, ht.mayMove,
            hfunds.trans hcover, rfl⟩
        refine ⟨[(program, .burn source src.mint authority amount)], _, by simp,
          (execAll_cons_eq_ok_iff ..).2 ⟨_, (exec_eq_ok_iff ..).2 ⟨?_, hburn⟩, rfl⟩, ?_⟩
        · -- of the accounts of the transfer the burn names the source and the authority
          have hsource' : q.admits ⟨source, false, true⟩ = true :=
            hadm _ (by cases checked <;> simp [TokenIx.metas])
          have hmint' : q.admits ⟨src.mint, false, true⟩ = true := by
            simp [Privileges.admits, hav, hw]
          have hauthority' : q.admits ⟨authority, true, false⟩ = true :=
            hadm _ (by cases checked <;> simp [TokenIx.metas])
          simp [TokenIx.metas, hsource', hmint', hauthority']
        · exact ((hs.setAccount hsource _).setAccount_self _).lower hx' (Nat.sub_le ..)
  | approve source delegate authority amount =>
      obtain rfl : j = source := by simpa [TokenIx.touched] using hj
      obtain ⟨a, -, -, -, -, rfl⟩ := (processApprove_eq_ok_iff ..).1 h
      exact hleft (hs.setAccount_self _)
  | revoke source authority =>
      obtain rfl : j = source := by simpa [TokenIx.touched] using hj
      obtain ⟨a, -, -, -, -, rfl⟩ := (processRevoke_eq_ok_iff ..).1 h
      exact hleft (hs.setAccount_self _)
  | setAuthority owned authority change =>
      obtain rfl : j = owned := by simpa [TokenIx.touched] using hj
      have hset := (processSetAuthority_eq_ok_iff program j authority l l' change).1 h
      cases change with
      | mintTokens new =>
          obtain ⟨x, -, -, -, rfl⟩ := hset
          simp at hno
      | freezeAccount new =>
          obtain ⟨x, -, -, -, rfl⟩ := hset
          simp at hno
      | accountOwner new =>
          obtain ⟨a, -, -, -, -, rfl⟩ := hset
          exact hleft (hs.setAccount_self _)
      | closeAccount new =>
          obtain ⟨a, -, -, -, -, rfl⟩ := hset
          exact hleft (hs.setAccount_self _)
  | mintTo mint destination authority amount =>
      obtain rfl : j = destination := by simpa [TokenIx.touched] using hj
      obtain ⟨a, x, -, -, -, -, hx, -, -, -, -, rfl⟩ := (processMintTo_eq_ok_iff ..).1 h
      exact hleft ((hs.setAccount_self _).raise hx (Nat.le_add_right ..))
  | burn source mint authority amount =>
      obtain rfl : j = source := by simpa [TokenIx.touched] using hj
      exact (htakes rfl).elim
  | closeAccount account destination authority =>
      obtain rfl : j = account := by simpa [TokenIx.touched] using hj
      obtain ⟨a, -, -, -, -, -, -, rfl⟩ := (processCloseAccount_eq_ok_iff ..).1 h
      exact hleft (hs.setAccount_self _)
  | freezeAccount account mint authority =>
      obtain rfl : j = account := by simpa [TokenIx.touched] using hj
      obtain ⟨a, x, -, -, -, -, -, -, -, rfl⟩ := (processToggleFreeze_eq_ok_iff ..).1 h
      exact hleft (hs.setAccount_self _)
  | thawAccount account mint authority =>
      obtain rfl : j = account := by simpa [TokenIx.touched] using hj
      obtain ⟨a, x, -, -, -, -, -, -, -, rfl⟩ := (processToggleFreeze_eq_ok_iff ..).1 h
      exact hleft (hs.setAccount_self _)

end Replay

/-! ## Accounts within reach -/

/-- What the account at `j` needs to be emptied by its owner: the mints that are available are
writable, the one of the account among them, and nobody was made a delegate by an owner who does not
sign. -/
structure Accessible (q : Privileges K) (j : K) (l : Ledger K) : Prop where
  conserved : l.Conserved
  minted : l.Minted
  mints_writable : ∀ k x, l.mints k = some x → q.available k = true → q.writable k = true
  mint_available : ∀ a, l.accounts j = some a → q.available a.mint = true
  owner_signs : ∀ d, OwnerSigns q d j l

section Accessible

variable {q : Privileges K} {j program : K} {ix : TokenIx K} {l l' : Ledger K}

theorem Accessible.mint_writable (hl : Accessible q j l) {a : TokenAccount K}
    (ha : l.accounts j = some a) : q.available a.mint = true ∧ q.writable a.mint = true := by
  obtain ⟨x, hx, -⟩ := hl.minted j a ha
  have hav := hl.mint_available a ha
  exact ⟨hav, hl.mints_writable _ x hx hav⟩

theorem exec_accessible (h : exec q program ix l = .ok l') (hl : Accessible q j l) :
    Accessible q j l' where
  conserved := process_conserved hl.conserved ((exec_eq_ok_iff ..).1 h).2
  minted := exec_minted h hl.minted
  mints_writable k y hy hav := by
    rcases exec_mint_origin h hy with ⟨x, hx, -⟩ | ⟨-, ⟨decimals, authority, freeze, hix⟩, -⟩
    · exact hl.mints_writable k x hx hav
    · have hadm := ((exec_eq_ok_iff ..).1 h).1
      rw [hix] at hadm
      exact writable_of_metas hadm (by simp [TokenIx.metas])
  mint_available b hb := by
    rcases exec_account_origin h hb with ⟨a, ha, hm, -⟩ | ⟨-, hix, -⟩
    · exact hm ▸ hl.mint_available a ha
    · have hadm := ((exec_eq_ok_iff ..).1 h).1
      rw [hix] at hadm
      exact available_of_admits (hadm ⟨b.mint, false, false⟩ (by simp [TokenIx.metas]))
  owner_signs d := exec_ownerSigns h (hl.owner_signs d)

/-- What takes from the account has the consent of its owner, and leaves an account that the owner
can go on taking from. -/
theorem exec_takesFrom (h : exec q program ix l = .ok l') (hl : Accessible q j l)
    (htakes : ix.TakesFrom j) : ∃ b, l'.accounts j = some b ∧ b.program = program ∧
      b.frozen = false ∧ q.signer b.owner = true := by
  obtain ⟨hadm, h⟩ := (exec_eq_ok_iff ..).1 h
  -- whoever may move the funds is the owner or was made a delegate by it
  have hsigns : ∀ {a : TokenAccount K} {authority : K} {amount : Nat}, l.accounts j = some a →
      a.MayMove authority amount → q.signer authority = true → q.signer a.owner = true := by
    intro a authority amount ha hmay hsig
    rcases hmay with ⟨hd, -⟩ | ⟨-, ho⟩
    · exact hl.owner_signs _ a ha hd
    · exact ho ▸ hsig
  cases ix with
  | transfer source destination authority amount checked =>
      obtain ⟨rfl, hne⟩ := htakes
      obtain ⟨src, dst, fee, ht⟩ := (processTransfer_eq_ok_iff ..).1 h
      have hres := ht.result
      rw [if_neg hne.symm] at hres
      obtain ⟨-, -, rfl⟩ := hres
      have hsig : q.signer authority = true := by
        apply signer_of_metas hadm
        cases checked <;> simp [TokenIx.metas]
      refine ⟨(src.authorized authority amount).debit amount, by simp [hne.symm], ?_, ?_, ?_⟩
      · simpa using ht.source_program
      · simpa using ht.source_thawed
      · simpa using hsigns ht.source_some ht.mayMove hsig
  | burn source mint authority amount =>
      obtain rfl : source = j := htakes
      obtain ⟨a, x, ha, hp, -, -, hf, -, -, hmay, -, rfl⟩ := (processBurn_eq_ok_iff ..).1 h
      have hsig : q.signer authority = true := signer_of_metas hadm (by simp [TokenIx.metas])
      refine ⟨(a.authorized authority amount).debit amount, by simp, ?_, ?_, ?_⟩
      · simpa using hp
      · simpa using hf
      · simpa using hsigns ha hmay hsig
  | _ => exact htakes.elim

/-- The owner can empty the account, if need be after it was thawed. -/
theorem exists_emptied (hq : ∀ k, q.signer k = true → q.available k = true)
    (hl : Accessible q j l) (hj : q.available j = true ∧ q.writable j = true)
    {a : TokenAccount K} {x : Mint K} (ha : l.accounts j = some a) (hx : l.mints a.mint = some x)
    (howner : q.signer a.owner = true)
    (hthaw : a.frozen = true → ∃ h, x.freezeAuthority = some h ∧ q.signer h = true) :
    ∃ cs m, (∀ c ∈ cs, c.1 = a.program) ∧ execAll q cs l = .ok m ∧ Shadow j l m := by
  obtain ⟨x', hx', hxp⟩ := hl.minted j a ha
  obtain rfl := Option.some.inj (hx.symm.trans hx')
  have hmint := hl.mint_writable ha
  have hcover := hl.conserved.balance_le ha
  rw [Ledger.supply_of_some hx] at hcover
  obtain ⟨cs, l₁, hcs, hl₁, hmints, hacc, hframe⟩ := exists_thaw hq ha hx hxp hj hmint.1 hthaw
  obtain ⟨ds, l₂, b, hds, hl₂, hb, hba, -, hframe', hx₂, hmints₂⟩ :=
    exists_burn_thawed (a := { a with frozen := false }) hq hacc (hmints ▸ hx) hxp hj hmint howner
      rfl (Nat.le_refl a.amount) hcover
  refine ⟨cs ++ ds, l₂, ?_, (execAll_append_eq_ok_iff ..).2 ⟨l₁, hl₁, hl₂⟩, ?_, ?_, ?_⟩
  · intro c hc
    rcases List.mem_append.1 hc with hc | hc
    · exact hcs c hc
    · exact hds c hc
  · exact fun k hk => (hframe' k hk).trans (hframe k hk)
  · rw [Ledger.balance_of_some hb, hba]
    exact Nat.sub_self _
  · intro k
    by_cases hk : k = a.mint
    · refine ⟨x.supply - a.amount, ?_, ?_⟩
      · rw [hk, Ledger.supply_of_some hx]
        exact Nat.sub_le ..
      · rw [hk, hx₂, hx]
        rfl
    · refine ⟨l.supply k, Nat.le_refl _, ?_⟩
      rw [hmints₂ k hk, hmints]
      cases hm : l.mints k with
      | none => rfl
      | some y =>
          rw [Ledger.supply_of_some hm]
          rfl

end Accessible

/-! ## Accounts out of reach -/

section Lone

variable {q : Privileges K} {k z program : K} {ix : TokenIx K} {l l' : Ledger K} {n : Nat}

/-- What does not take from an account leaves its balance or raises it. -/
theorem balance_le_of_not_takesFrom (h : process program ix l = .ok l')
    (htakes : ¬ ix.TakesFrom k) : l.balance k ≤ l'.balance k := by
  cases ix with
  | initializeMint mint decimals mintAuthority freezeAuthority =>
      obtain ⟨-, -, rfl⟩ := (processInitializeMint_eq_ok_iff ..).1 h
      exact Nat.le_refl _
  | initializeAccount account mint owner =>
      obtain ⟨x, -, hnone, -, -, rfl⟩ := (processInitializeAccount_eq_ok_iff ..).1 h
      rw [Ledger.balance_create hnone]
  | transfer source destination authority amount checked =>
      obtain ⟨src, dst, fee, h⟩ := (processTransfer_eq_ok_iff ..).1 h
      have hres := h.result
      split at hres
      · rw [hres]
      · next hself =>
          obtain ⟨-, -, rfl⟩ := hres
          have hsource : k ≠ source := by
            rintro rfl
            exact htakes ⟨rfl, Ne.symm hself⟩
          rw [Ledger.balance_setAccount, Ledger.balance_setAccount, if_neg hsource]
          split
          · next hk =>
              rw [hk, Ledger.balance_of_some h.destination_some, TokenAccount.credit_amount]
              exact Nat.le_add_right ..
          · exact Nat.le_refl _
  | approve source delegate authority amount =>
      obtain ⟨a, ha, -, -, -, rfl⟩ := (processApprove_eq_ok_iff ..).1 h
      exact Nat.le_of_eq (balance_setAccount_same ha (by rfl) k).symm
  | revoke source authority =>
      obtain ⟨a, ha, -, -, -, rfl⟩ := (processRevoke_eq_ok_iff ..).1 h
      exact Nat.le_of_eq (balance_setAccount_same ha (by rfl) k).symm
  | setAuthority owned authority change =>
      have hset := (processSetAuthority_eq_ok_iff program owned authority l l' change).1 h
      cases change with
      | mintTokens new =>
          obtain ⟨x, -, -, -, rfl⟩ := hset
          exact Nat.le_refl _
      | freezeAccount new =>
          obtain ⟨x, -, -, -, rfl⟩ := hset
          exact Nat.le_refl _
      | accountOwner new =>
          obtain ⟨a, ha, -, -, -, rfl⟩ := hset
          exact Nat.le_of_eq (balance_setAccount_same ha (by rfl) k).symm
      | closeAccount new =>
          obtain ⟨a, ha, -, -, -, rfl⟩ := hset
          exact Nat.le_of_eq (balance_setAccount_same ha (by rfl) k).symm
  | mintTo mint destination authority amount =>
      obtain ⟨a, x, ha, -, -, -, -, -, -, -, -, rfl⟩ := (processMintTo_eq_ok_iff ..).1 h
      rw [Ledger.balance_setMint, Ledger.balance_setAccount]
      split
      · next hk =>
          rw [hk, Ledger.balance_of_some ha, TokenAccount.credit_amount]
          exact Nat.le_add_right ..
      · exact Nat.le_refl _
  | burn source mint authority amount =>
      obtain ⟨a, x, -, -, -, -, -, -, -, -, -, rfl⟩ := (processBurn_eq_ok_iff ..).1 h
      rw [Ledger.balance_setMint, Ledger.balance_setAccount, if_neg (fun hk => htakes hk.symm)]
  | closeAccount account destination authority =>
      obtain ⟨a, -, ha, -, h0, -, -, rfl⟩ := (processCloseAccount_eq_ok_iff ..).1 h
      by_cases hk : k = account
      · rw [hk, Ledger.balance_of_some ha, h0]
        exact Nat.zero_le _
      · exact Nat.le_of_eq (Ledger.balance_congr (by simp [hk])).symm
  | freezeAccount account mint authority =>
      obtain ⟨a, x, ha, -, -, -, -, -, -, rfl⟩ := (processToggleFreeze_eq_ok_iff ..).1 h
      exact Nat.le_of_eq (balance_setAccount_same ha (by rfl) k).symm
  | thawAccount account mint authority =>
      obtain ⟨a, x, ha, -, -, -, -, -, -, rfl⟩ := (processToggleFreeze_eq_ok_iff ..).1 h
      exact Nat.le_of_eq (balance_setAccount_same ha (by rfl) k).symm

/-- The account at `k` holds `n` tokens of the mint `z` or more, and no other account that can be
written is of this mint. -/
structure Lone (q : Privileges K) (k z : K) (n : Nat) (l : Ledger K) : Prop where
  funds : n ≤ l.balance k
  mint : ∀ a, l.accounts k = some a → a.mint = z
  only : ∀ i, i ≠ k → q.writable i = true → ∀ b, l.accounts i = some b → b.mint ≠ z

/-- Without the mint nothing can be burned, and there is no account to pay to. -/
theorem exec_lone (hz : q.available z = false) (hn : 0 < n) (h : exec q program ix l = .ok l')
    (hl : Lone q k z n l) : Lone q k z n l' := by
  obtain ⟨hadm, hp⟩ := (exec_eq_ok_iff ..).1 h
  have hunavailable : ∀ {m : K} {w : Bool}, ⟨m, false, w⟩ ∈ ix.metas → m ≠ z := by
    rintro m w hmem rfl
    rw [available_of_admits (hadm _ hmem)] at hz
    cases hz
  have htakes : ¬ ix.TakesFrom k := by
    cases ix with
    -- the one who is paid would be another account of the mint
    | transfer source destination authority amount checked =>
        rintro ⟨rfl, hne⟩
        obtain ⟨src, dst, fee, ht⟩ := (processTransfer_eq_ok_iff ..).1 hp
        have hw : q.writable destination = true := by
          apply writable_of_metas hadm
          cases checked <;> simp [TokenIx.metas]
        exact hl.only destination hne hw dst ht.destination_some
          (ht.mint_eq.symm.trans (hl.mint src ht.source_some))
    | burn source mint authority amount =>
        rintro rfl
        obtain ⟨a, x, ha, -, -, -, -, -, hm, -⟩ := (processBurn_eq_ok_iff ..).1 hp
        have hne : mint ≠ z := hunavailable (w := true) (by simp [TokenIx.metas])
        exact hne (hm.trans (hl.mint a ha))
    | _ => exact id
  have hfunds := hl.funds.trans (balance_le_of_not_takesFrom hp htakes)
  obtain ⟨a, ha⟩ := Ledger.exists_of_balance_pos (hn.trans_le hl.funds)
  refine ⟨hfunds, fun b hb => ?_, fun i hi hw b hb => ?_⟩
  · exact (exec_account_fixed h ha hb).1.trans (hl.mint a ha)
  · rcases exec_account_origin h hb with ⟨c, hc, hm, -⟩ | ⟨-, hix, -⟩
    · exact hm ▸ hl.only i hi hw c hc
    · exact hunavailable (w := false) (by rw [hix]; simp [TokenIx.metas])

theorem reach_lone (hz : q.available z = false) (hn : 0 < n) (h : Reach q l l')
    (hl : Lone q k z n l) : Lone q k z n l' :=
  reach_invariant h hl fun _ _ _ _ hm hix => exec_lone hz hn hix hm

end Lone

/-! ## Runs -/

/-- From `l` instructions of programs with `P` lead to a shadow of `l'`. -/
def ShadowReached (q : Privileges K) (P : K → Prop) (j : K) (l' l : Ledger K) : Prop :=
  ∃ cs m, (∀ c ∈ cs, P c.1) ∧ execAll q cs l = .ok m ∧ Shadow j l' m

section Run

variable {q : Privileges K} {P : K → Prop} {j : K} {l l' m : Ledger K}
  {cs : List (K × TokenIx K)}

theorem ShadowReached.after (h : ShadowReached q P j l' m) (hcs : ∀ c ∈ cs, P c.1)
    (hm : execAll q cs l = .ok m) : ShadowReached q P j l' l := by
  obtain ⟨ds, m', hds, hm', hs⟩ := h
  refine ⟨cs ++ ds, m', ?_, (execAll_append_eq_ok_iff ..).2 ⟨m, hm, hm'⟩, hs⟩
  intro c hc
  rcases List.mem_append.1 hc with hc | hc
  · exact hcs c hc
  · exact hds c hc

/-- Mints are never closed. -/
theorem none_mint_of_execAll (h : execAll q cs l = .ok l') (hno : l'.mints j = none) :
    l.mints j = none := by
  rw [Option.eq_none_iff_forall_ne_some]
  intro x hx
  obtain ⟨x', hx', -⟩ := reach_mint_fixed (reach_of_execAll h) hx
  rw [hno] at hx'
  cases hx'

/-- By induction on the run: either it takes from the account at some point, and then its owner can
empty the account right after that, or it can be carried over to every shadow. -/
theorem execAll_shadow (hq : ∀ k, q.signer k = true → q.available k = true)
    (hj : q.available j = true ∧ q.writable j = true) (h : execAll q cs l = .ok l')
    (hcs : ∀ c ∈ cs, P c.1) (hl : Accessible q j l) (hno : l'.mints j = none) :
    ShadowReached q P j l' l ∨
      ∀ m, Shadow j l m → m.Conserved → ShadowReached q P j l' m := by
  induction cs generalizing l with
  | nil =>
      obtain rfl : l = l' := by simpa [execAll] using h
      exact Or.inr fun m hs _ => ⟨[], m, by simp, rfl, hs⟩
  | cons c cs ih =>
      obtain ⟨l₁, h₁, hrest⟩ := (execAll_cons_eq_ok_iff ..).1 h
      have hc : P c.1 := hcs c List.mem_cons_self
      have hl₁ := exec_accessible h₁ hl
      have hone : execAll q [c] l = .ok l₁ := (execAll_cons_eq_ok_iff ..).2 ⟨l₁, h₁, rfl⟩
      rcases ih hrest (fun d hd => hcs d (List.mem_cons_of_mem c hd)) hl₁ with hdone | hcarry
      · exact Or.inl (hdone.after (by simpa using hc) hone)
      by_cases htakes : c.2.TakesFrom j
      -- the owner signs here, so the account is emptied right after the step
      · obtain ⟨b, hb, hbp, hbf, hbo⟩ := exec_takesFrom h₁ hl htakes
        obtain ⟨x, hx, -⟩ := hl₁.minted j b hb
        obtain ⟨ds, m, hds, hm, hs⟩ := exists_emptied hq hl₁ hj hb hx hbo (by simp [hbf])
        have hconserved := reach_conserved hl₁.conserved (reach_of_execAll hm)
        have hemptied := (hcarry m hs hconserved).after
          (fun d hd => by rw [hds d hd, hbp]; exact hc)
          hm
        exact Or.inl (hemptied.after (by simpa using hc) hone)
      · refine Or.inr fun m hs hm => ?_
        -- the shadow makes the step too, or it does without it
        have hno₁ := none_mint_of_execAll hrest hno
        obtain ⟨ds, m₁, hds, hm₁, hs₁⟩ : ∃ ds m₁, (∀ d ∈ ds, d.1 = c.1) ∧
            execAll q ds m = .ok m₁ ∧ Shadow j l₁ m₁ := by
          by_cases htouched : j ∈ c.2.touched
          · exact hs.absorb hm htouched htakes hno₁ hl.minted (fun _ ha => hl.mint_writable ha) h₁
          · obtain ⟨hadm, hp⟩ := (exec_eq_ok_iff ..).1 h₁
            obtain ⟨m₁, hm₁, hs₁⟩ := hs.process hm htouched hp
            exact ⟨[c], m₁, by simp, (execAll_cons_eq_ok_iff ..).2
              ⟨m₁, (exec_eq_ok_iff ..).2 ⟨hadm, hm₁⟩, rfl⟩, hs₁⟩
        have hconserved := reach_conserved hm (reach_of_execAll hm₁)
        exact (hcarry m₁ hs₁ hconserved).after (fun d hd => by rw [hds d hd]; exact hc) hm₁

/-- Beside every run that leaves the address of the account free of mints there is one that ends
with the account empty and everything else the same, but for lower supplies. -/
theorem exists_drained (hq : ∀ k, q.signer k = true → q.available k = true)
    (hj : q.available j = true ∧ q.writable j = true) (h : execAll q cs l = .ok l')
    (hcs : ∀ c ∈ cs, P c.1) (hl : Accessible q j l) (hno : l'.mints j = none)
    {a : TokenAccount K} {x : Mint K} (ha : l.accounts j = some a) (hx : l.mints a.mint = some x)
    (hP : P a.program) (howner : q.signer a.owner = true)
    (hthaw : a.frozen = true → ∃ h, x.freezeAuthority = some h ∧ q.signer h = true) :
    ShadowReached q P j l' l := by
  rcases execAll_shadow hq hj h hcs hl hno with hdone | hcarry
  · exact hdone
  · obtain ⟨ds, m, hds, hm, hs⟩ := exists_emptied hq hl hj ha hx howner hthaw
    have hconserved := reach_conserved hl.conserved (reach_of_execAll hm)
    exact (hcarry m hs hconserved).after (fun d hd => by rw [hds d hd]; exact hP) hm

end Run

end TokenLedger
