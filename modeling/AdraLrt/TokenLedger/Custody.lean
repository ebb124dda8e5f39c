import AdraLrt.TokenLedger.Privilege

/-!
# Custody

What an admitted instruction cannot do, for whichever program runs it.

* Accounts and mints that are not writable stay as they are (`reach_frame`).
* A token account of an owner who does not sign, with no delegate and no foreign close authority,
  keeps its owner and its funds (`reach_accountKept`). The same account gains exactly what the
  instruction credits to it (`exec_balance_of_held`).
* A mint whose authority does not sign keeps the authority, its decimals and its program, and its
  supply does not grow (`reach_mintKept`).
* An account frozen by an authority that does not sign stays frozen with its funds
  (`reach_frozenBeyond`).

Each statement is an invariant of one step, lifted to sequences of steps by induction.
-/

set_option autoImplicit false

namespace TokenLedger

open Checked

variable {K : Type} [DecidableEq K]

/-- An account that only `owner` controls. -/
structure TokenAccount.Held (owner : K) (a : TokenAccount K) : Prop where
  owner_eq : a.owner = owner
  delegate_eq : a.delegate = none
  close_eq : a.closeAuthority = none ∨ a.closeAuthority = some owner

instance (owner : K) (a : TokenAccount K) : Decidable (a.Held owner) :=
  decidable_of_iff (a.owner = owner ∧ a.delegate = none ∧
    (a.closeAuthority = none ∨ a.closeAuthority = some owner))
    ⟨fun h => ⟨h.1, h.2.1, h.2.2⟩, fun h => ⟨h.owner_eq, h.delegate_eq, h.close_eq⟩⟩

omit [DecidableEq K] in
theorem TokenAccount.Held.closer {owner : K} {a : TokenAccount K} (h : a.Held owner) :
    a.closeAuthority.getD a.owner = owner := by
  rcases h.close_eq with hc | hc
  · simp [hc, h.owner_eq]
  · simp [hc]

/-- Accounts that only `owner` controls stay under its control and lose nothing. -/
def AccountKept (owner : K) (l l' : Ledger K) : Prop :=
  ∀ k a, l.accounts k = some a → a.Held owner →
    ∃ a', l'.accounts k = some a' ∧ a'.Held owner ∧ a'.mint = a.mint ∧ a'.program = a.program ∧
      a.amount ≤ a'.amount ∧ a'.closeAuthority = a.closeAuthority

omit [DecidableEq K] in
theorem AccountKept.refl (owner : K) (l : Ledger K) : AccountKept owner l l :=
  fun _ a ha hh => ⟨a, ha, hh, rfl, rfl, Nat.le_refl _, rfl⟩

omit [DecidableEq K] in
theorem AccountKept.trans {owner : K} {l m n : Ledger K} (h₁ : AccountKept owner l m)
    (h₂ : AccountKept owner m n) : AccountKept owner l n := by
  intro k a ha hh
  obtain ⟨b, hb, hhb, hm, hp, hle, hc⟩ := h₁ k a ha hh
  obtain ⟨c, hc', hhc, hm', hp', hle', hcc⟩ := h₂ k b hb hhb
  exact ⟨c, hc', hhc, hm'.trans hm, hp'.trans hp, Nat.le_trans hle hle', hcc.trans hc⟩

section Steps

variable {p : Privileges K} {program : K} {l l' : Ledger K}

/-- One admitted instruction without the owner's signature. -/
theorem accountChange_held {owner : K} (hs : p.signer owner = false) {a : TokenAccount K}
    (hh : a.Held owner) {b : Option (TokenAccount K)}
    (h : AccountChange p program l (some a) b) :
    ∃ a', b = some a' ∧ a'.Held owner ∧ a'.mint = a.mint ∧ a'.program = a.program ∧
      a.amount ≤ a'.amount ∧ a'.closeAuthority = a.closeAuthority := by
  have hown : p.signer a.owner ≠ true := by simp [hh.owner_eq, hs]
  have hclose : p.signer (a.closeAuthority.getD a.owner) ≠ true := by simp [hh.closer, hs]
  -- every change but a credit and a freeze is signed for by the owner
  cases h with
  | moved authority amount hsig hmay hf hle =>
      rcases hmay with ⟨hd, -⟩ | ⟨-, ho⟩
      · simp [hh.delegate_eq] at hd
      · exact absurd (ho ▸ hsig) hown
  | credited amount fee hf =>
      exact ⟨_, rfl, ⟨hh.owner_eq, hh.delegate_eq, hh.close_eq⟩, rfl, rfl, Nat.le_add_right _ _,
        rfl⟩
  | approved delegate amount hsig hf => exact absurd hsig hown
  | revoked hsig hf => exact absurd hsig hown
  | ownerSet new hsig hf => exact absurd hsig hown
  | closeAuthoritySet new hsig hf => exact absurd hsig hclose
  | closed hsig h0 => exact absurd hsig hclose
  | frozenSet frozen hm hfa hsig =>
      exact ⟨_, rfl, ⟨hh.owner_eq, hh.delegate_eq, hh.close_eq⟩, rfl, rfl, Nat.le_refl _, rfl⟩

theorem exec_accountKept {owner : K} (hs : p.signer owner = false) {ix : TokenIx K}
    (h : exec p program ix l = .ok l') : AccountKept owner l l' := by
  intro k a ha hh
  rcases exec_account h k with heq | ⟨-, hc⟩
  · exact ⟨a, heq.trans ha, hh, rfl, rfl, Nat.le_refl _, rfl⟩
  · rw [ha] at hc
    exact accountChange_held hs hh hc

/-- Accounts of an owner who does not sign survive any sequence of instructions. -/
theorem reach_accountKept {owner : K} (hs : p.signer owner = false)
    (h : Reach p l l') : AccountKept owner l l' :=
  reach_invariant h (AccountKept.refl owner l) fun _ _ _ _ hkept hix =>
    hkept.trans (exec_accountKept hs hix)

/-- Without the owner's signature nothing leaves the account. -/
theorem debited_eq_zero_of_held {owner : K} (hs : p.signer owner = false) {ix : TokenIx K}
    (h : exec p program ix l = .ok l') {k : K} {a : TokenAccount K} (ha : l.accounts k = some a)
    (hh : a.Held owner) : ix.debited k = 0 := by
  obtain ⟨hp, h⟩ := (exec_eq_ok_iff ..).1 h
  have key : ∀ {authority : K} {amount : Nat}, p.signer authority = true →
      ¬ a.MayMove authority amount := by
    rintro authority amount hsig (⟨hd, -⟩ | ⟨-, ho⟩)
    · simp [hh.delegate_eq] at hd
    · rw [← ho, hh.owner_eq, hs] at hsig
      exact absurd hsig (by simp)
  cases ix with
  | transfer source destination authority amount checked =>
      obtain ⟨src, dst, fee, h⟩ := (processTransfer_eq_ok_iff ..).1 h
      have hauth : p.signer authority = true := by
        apply signer_of_metas hp
        cases checked <;> simp [TokenIx.metas]
      by_cases hk : k = source
      · subst hk
        obtain rfl := Option.some.inj (ha.symm.trans h.source_some)
        exact absurd h.mayMove (key hauth)
      · simp [TokenIx.debited, hk]
  | burn source mint authority amount =>
      obtain ⟨src, m, hsrc, -, -, -, -, -, -, hmay, -, -⟩ := (processBurn_eq_ok_iff ..).1 h
      have hauth : p.signer authority = true := signer_of_metas hp (by simp [TokenIx.metas])
      by_cases hk : k = source
      · subst hk
        obtain rfl := Option.some.inj (ha.symm.trans hsrc)
        exact absurd hmay (key hauth)
      · simp [TokenIx.debited, hk]
  | _ => rfl

/-- Without the owner's signature the account gains exactly what the instruction credits to it. -/
theorem exec_balance_of_held {owner : K} (hf : l.FeeFree) (hs : p.signer owner = false)
    {ix : TokenIx K} (h : exec p program ix l = .ok l') {k : K} {a : TokenAccount K}
    (ha : l.accounts k = some a) (hh : a.Held owner) :
    l'.balance k = l.balance k + ix.credited k := by
  have hb := process_balance hf ((exec_eq_ok_iff ..).1 h).2 k
  rw [debited_eq_zero_of_held hs h ha hh] at hb
  exact hb

/-! ## Mints -/

/-- The mint at `m` keeps its authority and its fixed data, and gains no supply. The freeze
authority is kept as well unless another key holds it. -/
def MintKept (authority : K) (m : K) (l l' : Ledger K) : Prop :=
  ∀ x, l.mints m = some x → x.mintAuthority = some authority →
    ∃ x', l'.mints m = some x' ∧ x'.mintAuthority = some authority ∧ x'.supply ≤ x.supply ∧
      x'.decimals = x.decimals ∧ x'.program = x.program ∧
      ((∀ k ∈ x.freezeAuthority, k = authority) → x'.freezeAuthority = x.freezeAuthority)

omit [DecidableEq K] in
theorem MintKept.refl (authority m : K) (l : Ledger K) : MintKept authority m l l :=
  fun x hx hm => ⟨x, hx, hm, Nat.le_refl _, rfl, rfl, fun _ => rfl⟩

omit [DecidableEq K] in
theorem MintKept.trans {authority m : K} {l₁ l₂ l₃ : Ledger K} (h₁ : MintKept authority m l₁ l₂)
    (h₂ : MintKept authority m l₂ l₃) : MintKept authority m l₁ l₃ := by
  intro x hx hm
  obtain ⟨y, hy, hym, hle, hd, hp, hf⟩ := h₁ x hx hm
  obtain ⟨z, hz, hzm, hle', hd', hp', hf'⟩ := h₂ y hy hym
  refine ⟨z, hz, hzm, Nat.le_trans hle' hle, hd'.trans hd, hp'.trans hp, fun h => ?_⟩
  have hyx := hf h
  exact (hf' (hyx ▸ h)).trans hyx

theorem exec_mintKept {authority : K} (hs : p.signer authority = false) {ix : TokenIx K}
    (h : exec p program ix l = .ok l') (m : K) : MintKept authority m l l' := by
  intro x hx hm
  rcases exec_mint h m with heq | ⟨-, hc⟩
  · exact ⟨x, heq.trans hx, hm, Nat.le_refl _, rfl, rfl, fun _ => rfl⟩
  · rw [hx] at hc
    generalize hy : l'.mints m = y at hc
    cases hc with
    | minted amount hh hsig =>
        obtain rfl := Option.some.inj (hm.symm.trans hh)
        exact absurd hsig (by simp [hs])
    | burned amount hle => exact ⟨_, rfl, hm, Nat.sub_le _ _, rfl, rfl, fun _ => rfl⟩
    | mintAuthoritySet new hh hsig =>
        obtain rfl := Option.some.inj (hm.symm.trans hh)
        exact absurd hsig (by simp [hs])
    | freezeAuthoritySet new hh hsig =>
        refine ⟨_, rfl, hm, Nat.le_refl _, rfl, rfl, fun hf => ?_⟩
        obtain rfl := hf _ hh
        exact absurd hsig (by simp [hs])

/-- A mint whose authority does not sign survives any sequence of instructions. -/
theorem reach_mintKept {authority : K} (hs : p.signer authority = false)
    (h : Reach p l l') (m : K) : MintKept authority m l l' :=
  reach_invariant h (MintKept.refl authority m l) fun _ _ _ _ hkept hix =>
    hkept.trans (exec_mintKept hs hix m)

/-- Without the authority's signature nothing is minted. -/
theorem minted_eq_zero {authority : K} (hs : p.signer authority = false) {ix : TokenIx K}
    (h : exec p program ix l = .ok l') {m : K} {x : Mint K} (hx : l.mints m = some x)
    (hm : x.mintAuthority = some authority) : ix.minted m = 0 := by
  obtain ⟨hp, h⟩ := (exec_eq_ok_iff ..).1 h
  cases ix with
  | mintTo mint destination holder amount =>
      obtain ⟨dst, y, -, -, -, -, hy, -, hh, -, -, -⟩ := (processMintTo_eq_ok_iff ..).1 h
      have hauth : p.signer holder = true := signer_of_metas hp (by simp [TokenIx.metas])
      by_cases hk : m = mint
      · subst hk
        obtain rfl := Option.some.inj (hx.symm.trans hy)
        obtain rfl := Option.some.inj (hm.symm.trans hh)
        exact absurd hauth (by simp [hs])
      · simp [TokenIx.minted, hk]
  | _ => rfl

/-! ## Frames -/

theorem exec_frame {ix : TokenIx K} (h : exec p program ix l = .ok l') {k : K}
    (hw : p.writable k = false) : l'.accounts k = l.accounts k ∧ l'.mints k = l.mints k := by
  constructor
  · rcases exec_account h k with heq | ⟨hw', -⟩
    · exact heq
    · exact absurd hw' (by simp [hw])
  · rcases exec_mint h k with heq | ⟨hw', -⟩
    · exact heq
    · exact absurd hw' (by simp [hw])

/-- What is not writable stays as it is. -/
theorem reach_frame (h : Reach p l l') {k : K} (hw : p.writable k = false) :
    l'.accounts k = l.accounts k ∧ l'.mints k = l.mints k := by
  apply reach_invariant h
  · exact ⟨rfl, rfl⟩
  · rintro program ix m n ⟨haccount, hmint⟩ hix
    obtain ⟨haccount', hmint'⟩ := exec_frame hix hw
    exact ⟨haccount'.trans haccount, hmint'.trans hmint⟩

/-! ## Frozen accounts -/

/-- The account at `k` holds `n > 0` tokens and is frozen by an authority that does not sign. -/
def FrozenBeyond (p : Privileges K) (k : K) (n : Nat) (l : Ledger K) : Prop :=
  ∃ a m, l.accounts k = some a ∧ a.frozen = true ∧ a.amount = n ∧ 0 < n ∧
    l.mints a.mint = some m ∧ ∀ holder, m.freezeAuthority = some holder → p.signer holder = false

theorem exec_frozenBeyond {ix : TokenIx K} (h : exec p program ix l = .ok l') {k : K} {n : Nat}
    (hk : FrozenBeyond p k n l) : FrozenBeyond p k n l' := by
  obtain ⟨a, m, ha, hfrozen, rfl, hpos, hm, hfa⟩ := hk
  have hmint : ∃ m', l'.mints a.mint = some m' ∧
      ∀ holder, m'.freezeAuthority = some holder → p.signer holder = false := by
    rcases exec_mint h a.mint with heq | ⟨-, hc⟩
    · exact ⟨m, heq.trans hm, hfa⟩
    · rw [hm] at hc
      generalize l'.mints a.mint = y at hc
      cases hc with
      | minted amount hh hsig => exact ⟨_, rfl, hfa⟩
      | burned amount hle => exact ⟨_, rfl, hfa⟩
      | mintAuthoritySet new hh hsig => exact ⟨_, rfl, hfa⟩
      | freezeAuthoritySet new hh hsig => exact absurd hsig (by simp [hfa _ hh])
  obtain ⟨m', hm', hfa'⟩ := hmint
  refine ⟨a, m', ?_, hfrozen, rfl, hpos, hm', hfa'⟩
  rcases exec_account h k with heq | ⟨-, hc⟩
  · exact heq.trans ha
  · rw [ha] at hc
    generalize l'.accounts k = b at hc
    cases hc with
    | moved authority amount hsig hmay hf hle => simp [hfrozen] at hf
    | credited amount fee hf => simp [hfrozen] at hf
    | approved delegate amount hsig hf => simp [hfrozen] at hf
    | revoked hsig hf => simp [hfrozen] at hf
    | ownerSet new hsig hf => simp [hfrozen] at hf
    | closeAuthoritySet new hsig hf => simp [hfrozen] at hf
    | closed hsig h0 =>
        -- only an empty account can be closed
        omega
    | frozenSet frozen hx hh hsig =>
        obtain rfl := Option.some.inj (hm.symm.trans hx)
        exact absurd hsig (by simp [hfa _ hh])

/-- A frozen account keeps its funds over any sequence of instructions. -/
theorem reach_frozenBeyond (h : Reach p l l') {k : K} {n : Nat}
    (hk : FrozenBeyond p k n l) : FrozenBeyond p k n l' :=
  reach_invariant h hk fun _ _ _ _ hm hix => exec_frozenBeyond hix hm

end Steps

end TokenLedger
