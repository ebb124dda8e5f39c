import AdraLrt.Sample
import AdraLrt.Wire

/-!
# Pool accounts as bytes

The program stores a pool record behind the eight-byte discriminator of its type, in an account of
exactly that size (`account`, `size_account`). The generated client reads the same fields in the
same order, but looks for another discriminator: it was generated for a type named `LrtPool`, and
the program's is `LRTPool`. So the client returns no pool at any address of any state (`fetch_eq`),
and the discriminator is all that is wrong with it (`fetchWith_reads_iff`).
-/

set_option autoImplicit false

namespace AdraLrt

open TokenLedger Checked Bytes

/-- An address as it is stored. -/
abbrev Address : Type := { bs : List UInt8 // bs.length = 32 }

/-- The fields of a pool record with the addresses as bytes, as the class `LRTPool` of the client
has them. -/
structure PoolData where
  bump : UInt8
  inputTokenMint : Address
  outputTokenMint : Address
  delegateAuthority : Address
  outputMintLimit : UInt64
deriving DecidableEq

/-- The record with the bytes of its addresses. -/
def LRTPool.toData (address : Pubkey → Address) (r : LRTPool) : PoolData where
  bump := r.bump
  inputTokenMint := address r.inputTokenMint
  outputTokenMint := address r.outputTokenMint
  delegateAuthority := address r.delegateAuthority
  outputMintLimit := r.outputMintLimit

namespace PoolData

/-- `u8` in Borsh. -/
def u8 : Codec UInt8 :=
  (Codec.numberLE 1).map
    { toFun := fun k => UInt8.ofNat k
      invFun := fun x => ⟨x.toNat, x.toNat_lt⟩
      left_inv := fun k => Fin.ext (UInt8.toNat_ofNat_of_lt k.isLt)
      right_inv := fun _ => UInt8.ofNat_toNat }

/-- `publicKey` in Borsh. -/
def publicKey : Codec Address := Codec.bytes 32

/-- The fields in their order; the Borsh derivation of the program and the layout of the client. -/
def layout : Codec PoolData :=
  (u8.prod (publicKey.prod (publicKey.prod (publicKey.prod Wire.u64)))).map
    { toFun := fun x => ⟨x.1, x.2.1, x.2.2.1, x.2.2.2.1, x.2.2.2.2⟩
      invFun := fun r => (r.bump, r.inputTokenMint, r.outputTokenMint, r.delegateAuthority,
        r.outputMintLimit)
      left_inv := fun _ => rfl
      right_inv := fun _ => rfl }

-- `LRTPool::INIT_SPACE`
example : layout.size = 105 := rfl

/-! ## The program -/

/-- The discriminator that `#[account]` derives from the name of the struct. -/
def discriminator : List UInt8 := Wire.sighash "account" "LRTPool"

/-- A pool account as the program writes and reads it. -/
def account : Codec PoolData := Codec.tagged discriminator layout

/-- The space that the account is created with, `8 + LRTPool::INIT_SPACE`. -/
def space : Nat := 8 + layout.size

/-- Why the client throws. -/
inductive DataError where
  | invalidAccountDiscriminator
  | outOfRange
  | wrongOwner
deriving DecidableEq, Repr

@[simp] theorem length_discriminator : discriminator.length = 8 := Wire.length_sighash ..

/-- Every record fills its account, so that no write needs more space. -/
theorem size_account : account.size = space := by
  show discriminator.length + layout.size = 8 + layout.size
  rw [length_discriminator]

/-! ## The client -/

/-- `LRTPool.discriminator` of the client. -/
def clientDiscriminator : List UInt8 := [69, 185, 38, 138, 138, 223, 0, 216]

/-- `LRTPool.decode` with the discriminator as a parameter. -/
def decodeWith (tag data : List UInt8) : Except DataError PoolData := do
  require (data.take 8 = tag) .invalidAccountDiscriminator
  orError .outOfRange (layout.decode (data.drop 8))

/-- An account as the cluster returns it. -/
structure AccountInfo where
  owner : Pubkey
  data : List UInt8

/-- What the client throws at an account that is no pool to it. -/
def AccountInfo.refusal (info : AccountInfo) : DataError :=
  if info.owner = programId then .invalidAccountDiscriminator else .wrongOwner

/-- `LRTPool.fetch` with the discriminator as a parameter; a missing account is `null`. -/
def fetchWith (tag : List UInt8) : Option AccountInfo → Except DataError (Option PoolData)
  | none => .ok none
  | some info => do
    require (info.owner = programId) .wrongOwner
    some <$> decodeWith tag info.data

def decode : List UInt8 → Except DataError PoolData := decodeWith clientDiscriminator

def fetch : Option AccountInfo → Except DataError (Option PoolData) :=
  fetchWith clientDiscriminator

/-- `LRTPool.fetchMultiple`. -/
def fetchMultiple (infos : List (Option AccountInfo)) :
    Except DataError (List (Option PoolData)) :=
  infos.mapM fetch

theorem clientDiscriminator_ne : clientDiscriminator ≠ discriminator := by
  decide +kernel

end PoolData

open PoolData

/-- What the cluster holds besides: the bytes of the mints and token accounts, and the accounts that
no state speaks of. What this program has among these, for its IDL, is no pool. -/
structure Surroundings where
  tokenData : Pubkey → List UInt8
  others : Pubkey → Option AccountInfo
  others_data : ∀ k info, others k = some info → info.owner = programId →
    info.data.take 8 ≠ clientDiscriminator

/-- The account at an address as the cluster returns it. -/
def State.accountInfo (address : Pubkey → Address) (env : Surroundings) (s : State) (k : Pubkey) :
    Option AccountInfo :=
  ((s.pools k).map fun r => ⟨programId, account.encode (r.toData address)⟩) <|>
    ((s.ledger.mints k).map fun m => ⟨m.program, env.tokenData k⟩) <|>
    ((s.ledger.accounts k).map fun a => ⟨a.program, env.tokenData k⟩) <|> env.others k

section Client

variable {address : Pubkey → Address} {env : Surroundings} {s : State} {k : Pubkey}

theorem decodeWith_account (tag : List UInt8) (r : PoolData) :
    decodeWith tag (account.encode r) =
      if tag = discriminator then .ok r else .error .invalidAccountDiscriminator := by
  have htake : (account.encode r).take 8 = discriminator := List.take_left' length_discriminator
  have hdrop : (account.encode r).drop 8 = layout.encode r := List.drop_left' length_discriminator
  rw [decodeWith, htake, hdrop, layout.decode_encode]
  by_cases htag : tag = discriminator
  · rw [if_pos htag, require, if_pos htag.symm]
    rfl
  · rw [if_neg htag, require, if_neg (Ne.symm htag)]
    rfl

theorem fetchWith_account (tag : List UInt8) (r : PoolData) :
    fetchWith tag (some ⟨programId, account.encode r⟩) =
      if tag = discriminator then .ok (some r) else .error .invalidAccountDiscriminator := by
  rw [fetchWith, decodeWith_account, require, if_pos rfl]
  split
  · rfl
  · rfl

theorem accountInfo_of_pool {r : LRTPool} (hr : s.pools k = some r) :
    s.accountInfo address env k = some ⟨programId, account.encode (r.toData address)⟩ := by
  rw [State.accountInfo, hr]
  rfl

/-- An account of this program does not begin as the client expects. -/
theorem take_ne_clientDiscriminator (hl : s.ledger.Minted)
    (hprogram : ∀ m x, s.ledger.mints m = some x → x.program ≠ programId) {info : AccountInfo}
    (h : s.accountInfo address env k = some info) (howner : info.owner = programId) :
    info.data.take 8 ≠ clientDiscriminator := by
  unfold State.accountInfo at h
  cases hr : s.pools k with
  | some r =>
      rw [hr] at h
      obtain rfl := Option.some.inj h
      have htake : (account.encode (r.toData address)).take 8 = discriminator :=
        List.take_left' length_discriminator
      rw [htake]
      exact clientDiscriminator_ne.symm
  | none =>
      cases hm : s.ledger.mints k with
      | some m =>
          rw [hr, hm] at h
          obtain rfl := Option.some.inj h
          exact absurd howner (hprogram k m hm)
      | none =>
          cases ha : s.ledger.accounts k with
          | some a =>
              rw [hr, hm, ha] at h
              obtain rfl := Option.some.inj h
              obtain ⟨x, hx, hxp⟩ := hl k a ha
              exact absurd (hxp.trans howner) (hprogram a.mint x hx)
          | none =>
              rw [hr, hm, ha] at h
              exact env.others_data k info h howner

/-- The client finds no pool: in every state it gets `null` for an address without an account and an
exception for one with. -/
theorem fetch_eq (hl : s.ledger.Minted)
    (hprogram : ∀ m x, s.ledger.mints m = some x → x.program ≠ programId)
    (address : Pubkey → Address) (env : Surroundings) (k : Pubkey) :
    fetch (s.accountInfo address env k) =
      match s.accountInfo address env k with
      | none => .ok none
      | some info => .error info.refusal := by
  cases h : s.accountInfo address env k with
  | none => rfl
  | some info =>
      show fetch (some info) = .error info.refusal
      rw [fetch, fetchWith, AccountInfo.refusal]
      by_cases howner : info.owner = programId
      · have htake := take_ne_clientDiscriminator hl hprogram h howner
        rw [require, if_pos howner, if_pos howner, decodeWith, require, if_neg htake]
        rfl
      · rw [require, if_neg howner, if_neg howner]
        rfl

/-- Of several addresses the first with an account is enough for the exception. -/
theorem fetchMultiple_eq (hl : s.ledger.Minted)
    (hprogram : ∀ m x, s.ledger.mints m = some x → x.program ≠ programId)
    (address : Pubkey → Address) (env : Surroundings) (ks : List Pubkey) :
    fetchMultiple (ks.map (s.accountInfo address env)) =
      match ks.findSome? (s.accountInfo address env) with
      | none => .ok (ks.map fun _ => none)
      | some info => .error info.refusal := by
  induction ks with
  | nil => rfl
  | cons k ks ih =>
      rw [fetchMultiple] at ih ⊢
      simp only [List.map_cons, List.mapM_cons, ih, fetch_eq hl hprogram, List.findSome?_cons]
      cases s.accountInfo address env k with
      | some info => rfl
      | none =>
          cases ks.findSome? (s.accountInfo address env) with
          | some info => rfl
          | none => rfl

/-- With another discriminator the same code reads the pools of a state as the program wrote them if
and only if that is the one of the program, or there are none. -/
theorem fetchWith_reads_iff (address : Pubkey → Address) (env : Surroundings) (s : State)
    (tag : List UInt8) :
    (∀ k r, s.pools k = some r →
        fetchWith tag (s.accountInfo address env k) = .ok (some (r.toData address))) ↔
      tag = discriminator ∨ ∀ k, s.pools k = none := by
  constructor
  · intro h
    by_cases htag : tag = discriminator
    · exact Or.inl htag
    · refine Or.inr fun k => ?_
      rw [Option.eq_none_iff_forall_ne_some]
      intro r hr
      have hk := h k r hr
      rw [accountInfo_of_pool hr, fetchWith_account, if_neg htag] at hk
      cases hk
  · rintro (htag | hnone) k r hr
    · rw [accountInfo_of_pool hr, fetchWith_account, if_pos htag]
    · rw [hnone k] at hr
      cases hr

end Client

namespace Sample

/-- Empty accounts of the token programs, and nothing else. -/
def surroundings : Surroundings where
  tokenData _ := []
  others _ := none
  others_data _ _ h := by cases h

def zeroAddress (_ : Pubkey) : Address := ⟨List.replicate 32 0, rfl⟩

/-- The client throws at the pool and would throw at the mint behind it. -/
theorem pool_not_fetched :
    fetchMultiple ([user, pool, inputMint].map (operating.accountInfo zeroAddress surroundings)) =
      .error .invalidAccountDiscriminator := by
  rw [fetchMultiple_eq operating_sound.mint_some fun m x hx => ?_]
  · rfl
  · have hprogram : x.program = tokenProgram := program_ofLists (by decide) m x hx
    rw [hprogram]
    decide

end Sample

end AdraLrt
