import AdraLrt.TokenLedger.Funds
import AdraLrt.TokenLedger.Spend

/-!
# Footprints

Transfers, minting and burning read and write the token accounts they name and the supply of the
mint they name, and of other mints they read what no instruction of this kind changes. So the
outcome is determined by the ledger on this footprint (`process_frame`), nothing outside of it
changes (`process_eq_patch`), and instructions with disjoint footprints can be run in either order
(`exec_execAll_comm`).
-/

set_option autoImplicit false

namespace TokenLedger

open Checked

variable {K : Type}

/-- The token accounts that a transfer, minting or burning changes. -/
def TokenIx.accounts : TokenIx K → List K
  | .transfer source destination _ _ _ => [source, destination]
  | .mintTo _ destination _ _ => [destination]
  | .burn source _ _ _ => [source]
  | _ => []

/-- The mints whose supply it changes. -/
def TokenIx.supplies : TokenIx K → List K
  | .mintTo mint _ _ _ => [mint]
  | .burn _ mint _ _ => [mint]
  | _ => []

variable [DecidableEq K]

/-- The ledger `m` with the given accounts and mints of `l`. -/
def Ledger.patch (l : Ledger K) (accounts mints : List K) (m : Ledger K) : Ledger K where
  mints k := if k ∈ mints then l.mints k else m.mints k
  accounts k := if k ∈ accounts then l.accounts k else m.accounts k

/-- The two ledgers agree on the footprint of the instruction. -/
structure AgreeOn (ix : TokenIx K) (l m : Ledger K) : Prop where
  account : ∀ k ∈ ix.accounts, m.accounts k = l.accounts k
  mint : ∀ k ∈ ix.supplies, m.mints k = l.mints k
  alike : MintsAlike l m

variable {program : K} {ix : TokenIx K} {l l' m : Ledger K}

/-- On a ledger that agrees with `l` on its footprint, the instruction does what it does on `l`. -/
theorem process_frame (hix : ix.movesFunds = true) (h : process program ix l = .ok l')
    (ha : AgreeOn ix l m) :
    process program ix m = .ok (l'.patch ix.accounts ix.supplies m) := by
  cases ix with
  | transfer source destination authority amount checked =>
      obtain ⟨src, dst, fee, h⟩ := (processTransfer_eq_ok_iff ..).1 h
      have hsource := (ha.account source (by simp [TokenIx.accounts])).trans h.source_some
      have hdestination :=
        (ha.account destination (by simp [TokenIx.accounts])).trans h.destination_some
      have hfee := transferFee_of_alike ha.alike h.fee_ok
      refine (processTransfer_eq_ok_iff ..).2 ⟨src, dst, fee, hsource, h.source_program,
        hdestination, h.destination_program, h.source_thawed, h.destination_thawed, h.funds,
        h.mint_eq, hfee, h.mayMove, ?_⟩
      have hres := h.result
      by_cases hself : source = destination
      · -- a transfer to itself writes nothing, and `m` has that account already
        simp only [hself, if_true] at hres ⊢
        subst hself
        rw [hres]
        ext1
        · rfl
        · funext k
          by_cases hk : k = source
          · simp [Ledger.patch, TokenIx.accounts, hk, hsource, h.source_some]
          · simp [Ledger.patch, TokenIx.accounts, hk]
      · simp only [hself, if_false] at hres ⊢
        obtain ⟨hle, hadd, rfl⟩ := hres
        refine ⟨hle, hadd, ?_⟩
        ext1
        · rfl
        · funext k
          by_cases hd : k = destination
          · simp [Ledger.patch, TokenIx.accounts, hd]
          · by_cases hs : k = source
            · simp [Ledger.patch, TokenIx.accounts, hs, hself]
            · simp [Ledger.patch, TokenIx.accounts, hd, hs]
  | mintTo mint destination authority amount =>
      obtain ⟨dst, x, hd, hdp, hf, hdm, hx, hxp, hauth, hadd, hsupply, rfl⟩ :=
        (processMintTo_eq_ok_iff ..).1 h
      refine (processMintTo_eq_ok_iff ..).2 ⟨dst, x,
        (ha.account destination (by simp [TokenIx.accounts])).trans hd, hdp, hf, hdm,
        (ha.mint mint (by simp [TokenIx.supplies])).trans hx, hxp, hauth, hadd, hsupply, ?_⟩
      ext1
      · funext k
        by_cases hk : k = mint
        · simp [Ledger.patch, TokenIx.supplies, hk]
        · simp [Ledger.patch, TokenIx.supplies, hk]
      · funext k
        by_cases hk : k = destination
        · simp [Ledger.patch, TokenIx.accounts, hk]
        · simp [Ledger.patch, TokenIx.accounts, hk]
  | burn source mint authority amount =>
      obtain ⟨src, x, hs, hsp, hx, hxp, hf, hle, hm, hmay, hcover, rfl⟩ :=
        (processBurn_eq_ok_iff ..).1 h
      refine (processBurn_eq_ok_iff ..).2 ⟨src, x,
        (ha.account source (by simp [TokenIx.accounts])).trans hs, hsp,
        (ha.mint mint (by simp [TokenIx.supplies])).trans hx, hxp, hf, hle, hm, hmay, hcover, ?_⟩
      ext1
      · funext k
        by_cases hk : k = mint
        · simp [Ledger.patch, TokenIx.supplies, hk]
        · simp [Ledger.patch, TokenIx.supplies, hk]
      · funext k
        by_cases hk : k = source
        · simp [Ledger.patch, TokenIx.accounts, hk]
        · simp [Ledger.patch, TokenIx.accounts, hk]
  | initializeMint mint decimals mintAuthority freezeAuthority => cases hix
  | initializeAccount account mint owner => cases hix
  | approve source delegate authority amount => cases hix
  | revoke source authority => cases hix
  | setAuthority owned authority change => cases hix
  | closeAccount account destination authority => cases hix
  | freezeAccount account mint authority => cases hix
  | thawAccount account mint authority => cases hix

omit [DecidableEq K] in
theorem AgreeOn.refl (ix : TokenIx K) (l : Ledger K) : AgreeOn ix l l :=
  ⟨fun _ _ => rfl, fun _ _ => rfl, fun _ => rfl⟩

/-- Nothing outside the footprint changes. -/
theorem process_eq_patch (hix : ix.movesFunds = true) (h : process program ix l = .ok l') :
    l' = l'.patch ix.accounts ix.supplies l := by
  have hframe := process_frame hix h (AgreeOn.refl ix l)
  rw [h] at hframe
  exact Except.ok.inj hframe

theorem process_account_of_notMem (hix : ix.movesFunds = true) (h : process program ix l = .ok l')
    {k : K} (hk : k ∉ ix.accounts) : l'.accounts k = l.accounts k := by
  rw [process_eq_patch hix h]
  exact if_neg hk

theorem process_mint_of_notMem (hix : ix.movesFunds = true) (h : process program ix l = .ok l')
    {k : K} (hk : k ∉ ix.supplies) : l'.mints k = l.mints k := by
  rw [process_eq_patch hix h]
  exact if_neg hk

omit [DecidableEq K] in
/-- Mints keep everything but their supply, so the next instruction reads the same of them. -/
theorem FundsMoved.mintsAlike (h : FundsMoved l l') : MintsAlike l l' := by
  intro k
  cases hx : l.mints k with
  | none => rw [h.none_mint k hx]
  | some x =>
      obtain ⟨n, hn⟩ := h.some_mint k x hx
      rw [hn]
      rfl

omit [DecidableEq K] in
theorem MintsAlike.symm (h : MintsAlike l m) : MintsAlike m l :=
  fun k => (h k).symm

/-! ## Instructions in either order -/

/-- The footprints of the two instructions are disjoint. -/
structure Independent (ix jx : TokenIx K) : Prop where
  accounts : ∀ k ∈ ix.accounts, k ∉ jx.accounts
  supplies : ∀ k ∈ ix.supplies, k ∉ jx.supplies

omit [DecidableEq K] in
theorem Independent.symm {ix jx : TokenIx K} (h : Independent ix jx) : Independent jx ix where
  accounts k hk hk' := h.accounts k hk' hk
  supplies k hk hk' := h.supplies k hk' hk

/-- Before and after an instruction the ledger is the same on the footprint of an independent one.
-/
theorem Independent.agreeOn {jx : TokenIx K} (hi : Independent ix jx) (hix : ix.movesFunds = true)
    (h : process program ix l = .ok l') : AgreeOn jx l l' where
  account k hk := process_account_of_notMem hix h (hi.symm.accounts k hk)
  mint k hk := process_mint_of_notMem hix h (hi.symm.supplies k hk)
  alike := (process_fundsMoved hix h).mintsAlike

omit [DecidableEq K] in
theorem AgreeOn.symm (h : AgreeOn ix l m) : AgreeOn ix m l where
  account k hk := (h.account k hk).symm
  mint k hk := (h.mint k hk).symm
  alike := h.alike.symm

theorem process_comm {program' : K} {jx : TokenIx K} {n : Ledger K} (hix : ix.movesFunds = true)
    (hjx : jx.movesFunds = true) (hi : Independent ix jx) (h : process program ix l = .ok m)
    (h' : process program' jx m = .ok n) :
    ∃ m', process program' jx l = .ok m' ∧ process program ix m' = .ok n := by
  have hj := process_frame hjx h' (hi.agreeOn hix h).symm
  refine ⟨_, hj, ?_⟩
  rw [process_frame hix h (hi.symm.agreeOn hjx hj), Except.ok.injEq]
  -- each account and each mint is as the one instruction that touches it leaves it
  ext1
  · funext k
    by_cases hk : k ∈ ix.supplies
    · rw [process_mint_of_notMem hjx h' (hi.supplies k hk)]
      exact if_pos hk
    · by_cases hk' : k ∈ jx.supplies
      · simp [Ledger.patch, hk, hk']
      · rw [process_mint_of_notMem hjx h' hk', process_mint_of_notMem hix h hk]
        simp [Ledger.patch, hk, hk']
  · funext k
    by_cases hk : k ∈ ix.accounts
    · rw [process_account_of_notMem hjx h' (hi.accounts k hk)]
      exact if_pos hk
    · by_cases hk' : k ∈ jx.accounts
      · simp [Ledger.patch, hk, hk']
      · rw [process_account_of_notMem hjx h' hk', process_account_of_notMem hix h hk]
        simp [Ledger.patch, hk, hk']

theorem exec_comm {p q : Privileges K} {program' : K} {jx : TokenIx K} {n : Ledger K}
    (hix : ix.movesFunds = true) (hjx : jx.movesFunds = true) (hi : Independent ix jx)
    (h : exec p program ix l = .ok m) (h' : exec q program' jx m = .ok n) :
    ∃ m', exec q program' jx l = .ok m' ∧ exec p program ix m' = .ok n := by
  obtain ⟨hp, h⟩ := (exec_eq_ok_iff ..).1 h
  obtain ⟨hq, h'⟩ := (exec_eq_ok_iff ..).1 h'
  obtain ⟨m', hj, hi⟩ := process_comm hix hjx hi h h'
  exact ⟨m', (exec_eq_ok_iff ..).2 ⟨hq, hj⟩, (exec_eq_ok_iff ..).2 ⟨hp, hi⟩⟩

/-- An instruction can be moved past a list of independent ones. -/
theorem exec_execAll_comm {p q : Privileges K} {cs : List (K × TokenIx K)}
    (hix : ix.movesFunds = true)
    (hcs : ∀ c ∈ cs, c.2.movesFunds = true ∧ Independent ix c.2) :
    (∃ m, exec p program ix l = .ok m ∧ execAll q cs m = .ok l') ↔
      ∃ m, execAll q cs l = .ok m ∧ exec p program ix m = .ok l' := by
  induction cs generalizing l with
  | nil => simp [execAll]
  | cons c cs ih =>
      -- past the first of the list, then past the others from the ledger it leaves
      obtain ⟨hc, hi⟩ := hcs c List.mem_cons_self
      have ih' := fun l => @ih l fun d hd => hcs d (List.mem_cons_of_mem c hd)
      constructor
      · rintro ⟨m, hm, h⟩
        obtain ⟨n, hn, h⟩ := (execAll_cons_eq_ok_iff ..).1 h
        obtain ⟨m', hm', hn'⟩ := exec_comm hix hc hi hm hn
        obtain ⟨k, hk, hl⟩ := (ih' m').1 ⟨n, hn', h⟩
        exact ⟨k, (execAll_cons_eq_ok_iff ..).2 ⟨m', hm', hk⟩, hl⟩
      · rintro ⟨k, hk, hl⟩
        obtain ⟨m', hm', hk⟩ := (execAll_cons_eq_ok_iff ..).1 hk
        obtain ⟨n, hn, h⟩ := (ih' m').2 ⟨k, hk, hl⟩
        obtain ⟨m, hm, hmn⟩ := exec_comm hc hix hi.symm hm' hn
        exact ⟨m, hm, (execAll_cons_eq_ok_iff ..).2 ⟨n, hmn, h⟩⟩

/-! ## Footprint of a list -/

theorem execAll_account_of_notMem {p : Privileges K} {cs : List (K × TokenIx K)}
    (hcs : ∀ c ∈ cs, c.2.movesFunds = true) (h : execAll p cs l = .ok l') {k : K}
    (hk : ∀ c ∈ cs, k ∉ c.2.accounts) : l'.accounts k = l.accounts k := by
  apply execAll_invariant (I := fun m => m.accounts k = l.accounts k) h rfl
  intro c hc m n hm hix
  have hstep := process_account_of_notMem (hcs c hc) ((exec_eq_ok_iff ..).1 hix).2 (hk c hc)
  exact hstep.trans hm

theorem execAll_mint_of_notMem {p : Privileges K} {cs : List (K × TokenIx K)}
    (hcs : ∀ c ∈ cs, c.2.movesFunds = true) (h : execAll p cs l = .ok l') {k : K}
    (hk : ∀ c ∈ cs, k ∉ c.2.supplies) : l'.mints k = l.mints k := by
  apply execAll_invariant (I := fun m => m.mints k = l.mints k) h rfl
  intro c hc m n hm hix
  have hstep := process_mint_of_notMem (hcs c hc) ((exec_eq_ok_iff ..).1 hix).2 (hk c hc)
  exact hstep.trans hm

end TokenLedger
