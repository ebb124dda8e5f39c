import AdraLrt.Bytes.Codec
import AdraLrt.Bytes.Sha256
import AdraLrt.Client

/-!
# Instructions as bytes

An instruction reaches the program as a list of accounts and a byte string. The generated client
puts eight fixed bytes in front of the argument (`clientData`); the entry point compares the first
eight bytes with the hashes of the handler names, reads the argument behind them and matches the
accounts with the struct of the handler (`entry`, and `dispatch` for what is accepted). Both are
modelled byte by byte here, with SHA-256 computed.

`dispatch_eq_ok_iff` is the exact set of byte strings and account lists that are accepted, and how
they are read. `reachable_iff` says that a state can be reached by submitting bytes exactly when it
can be reached by the typed instructions that the other modules are about, and `entry_data` the same
of the calls between programs, whose discriminators are symbolic there.
-/

set_option autoImplicit false

namespace AdraLrt

open TokenLedger Checked Bytes

/-- `u64` in Borsh. -/
def Wire.u64 : Codec UInt64 :=
  (Codec.numberLE 8).map
    { toFun := fun k => UInt64.ofNat k
      invFun := fun x => ⟨x.toNat, x.toNat_lt⟩
      left_inv := fun k => Fin.ext (UInt64.toNat_ofNat_of_lt k.isLt)
      right_inv := fun _ => UInt64.ofNat_toNat }

namespace Wire

/-- `utils::sighash`. -/
def sighash (ns name : String) : List UInt8 :=
  (Sha256.hash (ns ++ ":" ++ name).toUTF8.toList).take 8

/-- The name of each handler in `lib.rs`. -/
def handlerName : InstructionName → String
  | .initializePool => "initialize"
  | .deposit => "deposit"
  | .withdraw => "withdraw"
  | .withdrawDelegatedStake => "withdraw_delegated_stake"
  | .transferDelegateAuthority => "transfer_delegate_authority"
  | .delegate => "delegate"
  | .undelegate => "undelegate"
  | .updateMintLimit => "update_mint_limit"

/-- The identifiers that the generated client has in place of the hashes. -/
def identifier : InstructionName → List UInt8
  | .initializePool => [175, 175, 109, 31, 13, 152, 155, 237]
  | .deposit => [242, 35, 198, 137, 82, 225, 242, 182]
  | .withdraw => [183, 18, 70, 156, 148, 109, 161, 34]
  | .withdrawDelegatedStake => [203, 159, 183, 190, 144, 29, 114, 230]
  | .transferDelegateAuthority => [149, 121, 130, 72, 68, 111, 60, 51]
  | .delegate => [90, 147, 75, 178, 85, 88, 4, 137]
  | .undelegate => [131, 148, 180, 198, 91, 104, 42, 238]
  | .updateMintLimit => [179, 103, 247, 14, 80, 175, 163, 27]

/-- All handlers but one have an argument, a `u64`. -/
def takesArgument : InstructionName → Bool
  | .transferDelegateAuthority => false
  | _ => true

def handlers : List InstructionName :=
  [.initializePool, .deposit, .withdraw, .withdrawDelegatedStake, .transferDelegateAuthority,
    .delegate, .undelegate, .updateMintLimit]

/-- `IDL_IX_TAG_LE`, for the instructions on the program's IDL account that the framework adds. -/
def idlTag : List UInt8 := [0x40, 0xf4, 0xbc, 0x78, 0xa7, 0xe9, 0x69, 0x0a]

/-- `EVENT_IX_TAG_LE`, for the events that a program logs by calling itself. -/
def eventTag : List UInt8 := [0xe4, 0x45, 0xa5, 0x2e, 0x51, 0xcb, 0x9a, 0x1d]

/-- Why an instruction is refused or fails. `idlInstruction` is no error: the framework's own
handlers take over, which touch neither tokens nor pools, and what becomes of the instruction is
theirs to say. -/
inductive EntryError where
  | instructionMissing
  | idlInstruction
  | eventInstructionStub
  | instructionFallbackNotFound
  | instructionDidNotDeserialize
  | program (e : ProgramError)
deriving DecidableEq, Repr

/-- What becomes of eight bytes that are no handler's. -/
def unhandled (tag : List UInt8) : EntryError :=
  if tag = idlTag then .idlInstruction
  -- events are off
  else if tag = eventTag then .eventInstructionStub
  else .instructionFallbackNotFound

/-- The handler and the argument. -/
def read (data : List UInt8) : Except EntryError (InstructionName × UInt64) := do
  require (8 ≤ data.length) .instructionMissing
  let name ← orError (unhandled (data.take 8))
    (handlers.find? fun name => sighash "global" (handlerName name) = data.take 8)
  if takesArgument name then
    let amount ← orError .instructionDidNotDeserialize (u64.decode (data.drop 8))
    pure (name, amount)
  else
    pure (name, 0)

/-- The instruction as which bytes and accounts are read, if there are enough of both. -/
def dispatch (data : List UInt8) (accounts : List Pubkey) : Except EntryError Call := do
  let (name, amount) ← read data
  mapError .program (Call.parse name accounts amount)

/-- The entry point on bytes: the handler is found first, then its argument is read, and the
accounts come last. -/
def entry (cx : Cx) (accounts : List Pubkey) (data : List UInt8) (s : State) :
    Except EntryError State := do
  let (name, amount) ← read data
  mapError .program (handle cx name accounts amount s)

/-- The data of an instruction as the generated client builds it: the arguments are written to the
front of a buffer of a thousand bytes, which is cut behind them. -/
def clientData (name : InstructionName) (amount : UInt64) : List UInt8 :=
  if takesArgument name then
    let buffer := u64.encode amount ++ List.replicate (1000 - u64.size) 0
    (identifier name ++ buffer).take (8 + u64.size)
  else
    identifier name

end Wire

namespace Call

def name : Call → InstructionName
  | initializePool _ _ => .initializePool
  | deposit _ _ => .deposit
  | withdraw _ _ => .withdraw
  | withdrawDelegatedStake _ _ => .withdrawDelegatedStake
  | transferDelegateAuthority _ => .transferDelegateAuthority
  | delegate _ _ => .delegate
  | undelegate _ _ => .undelegate
  | updateMintLimit _ _ => .updateMintLimit

/-- The argument. -/
def argument : Call → UInt64
  | initializePool _ limit => limit
  | deposit _ amount => amount
  | withdraw _ amount => amount
  | withdrawDelegatedStake _ amount => amount
  | transferDelegateAuthority _ => 0
  | delegate _ amount => amount
  | undelegate _ amount => amount
  | updateMintLimit _ limit => limit

/-- The account addresses in their order. -/
def keys (c : Call) : List Pubkey := c.metas.map (·.pubkey)

/-- The data that the generated client sends. -/
def data (c : Call) : List UInt8 := Wire.clientData c.name c.argument

end Call

namespace Wire

/-! ## The two sides agree on the discriminators -/

/-- The identifiers of the client are the hashes that the program compares with. -/
theorem sighash_handlerName (name : InstructionName) :
    sighash "global" (handlerName name) = identifier name := by
  cases name with
  | initializePool => decide +kernel
  | deposit => decide +kernel
  | withdraw => decide +kernel
  | withdrawDelegatedStake => decide +kernel
  | transferDelegateAuthority => decide +kernel
  | delegate => decide +kernel
  | undelegate => decide +kernel
  | updateMintLimit => decide +kernel

@[simp] theorem length_sighash (ns name : String) : (sighash ns name).length = 8 := by
  rw [sighash, List.length_take, Sha256.length_hash]
  rfl

@[simp] theorem length_identifier (name : InstructionName) : (identifier name).length = 8 := by
  rw [← sighash_handlerName, length_sighash]

/-- The handler with the given identifier. -/
theorem find_identifier (name : InstructionName) :
    (handlers.find? fun n => identifier n = identifier name) = some name := by
  cases name with
  | initializePool => rfl
  | deposit => rfl
  | withdraw => rfl
  | withdrawDelegatedStake => rfl
  | transferDelegateAuthority => rfl
  | delegate => rfl
  | undelegate => rfl
  | updateMintLimit => rfl

theorem mem_handlers (name : InstructionName) : name ∈ handlers := by
  cases name <;> decide

/-! ## What the client builds -/

@[simp] theorem size_u64 : u64.size = 8 := rfl

/-- The zeros of the buffer are cut off again. -/
theorem clientData_eq (name : InstructionName) (amount : UInt64) :
    clientData name amount =
      identifier name ++ if takesArgument name then u64.encode amount else [] := by
  unfold clientData
  split
  · have hlen : (identifier name ++ u64.encode amount).length = 8 + u64.size := by
      rw [List.length_append, length_identifier, u64.length_encode]
    show (identifier name ++ (u64.encode amount ++ _)).take (8 + u64.size) = _
    rw [← List.append_assoc, ← hlen, List.take_left' rfl]
  · rw [List.append_nil]

/-! ## What the program reads -/

/-- Data is read as the instruction whose client data stands in front; what follows is ignored. -/
theorem read_eq_ok_iff (data : List UInt8) (name : InstructionName) (amount : UInt64) :
    read data = .ok (name, amount) ↔
      clientData name amount <+: data ∧ (takesArgument name = false → amount = 0) := by
  simp only [read, sighash_handlerName, bind_eq_ok_iff, require_eq_ok_iff, orError_eq_ok_iff,
    clientData_eq]
  constructor
  · rintro ⟨_, hlen, found, hfound, hrest⟩
    -- the handler that was found has the first eight bytes for its identifier
    have htest := List.find?_some hfound
    have hid : identifier found = data.take 8 := of_decide_eq_true htest
    have hdata : data = identifier found ++ data.drop 8 := by
      rw [hid, List.take_append_drop]
    split at hrest
    · next harg =>
        obtain ⟨x, hx, hpair⟩ := (bind_eq_ok_iff ..).1 hrest
        obtain ⟨rfl, rfl⟩ := Prod.mk.inj ((pure_eq_ok_iff ..).1 hpair)
        have hprefix := (u64.decode_eq_some_iff ..).1 ((orError_eq_ok_iff ..).1 hx)
        rw [if_pos harg]
        refine ⟨?_, fun hno => absurd harg (by simp [hno])⟩
        rw [hdata]
        exact (List.prefix_append_right_inj _).2 hprefix
    · next harg =>
        obtain ⟨rfl, rfl⟩ := Prod.mk.inj ((pure_eq_ok_iff ..).1 hrest)
        rw [if_neg harg, List.append_nil]
        exact ⟨⟨_, hdata.symm⟩, fun _ => rfl⟩
  · rintro ⟨⟨rest, rfl⟩, hzero⟩
    have htake : (identifier name ++ (if takesArgument name then u64.encode amount else []) ++
        rest).take 8 = identifier name := by
      rw [List.append_assoc]
      exact List.take_left' (length_identifier name)
    have hdrop : (identifier name ++ (if takesArgument name then u64.encode amount else []) ++
        rest).drop 8 = (if takesArgument name then u64.encode amount else []) ++ rest := by
      rw [List.append_assoc]
      exact List.drop_left' (length_identifier name)
    refine ⟨(), ?_, name, ?_, ?_⟩
    · rw [List.append_assoc, List.length_append, length_identifier]
      exact Nat.le_add_right _ _
    · rw [htake]
      exact find_identifier name
    · rw [hdrop]
      cases harg : takesArgument name with
      | true =>
          simp only [if_true, u64.decode_append, bind_eq_ok_iff, orError_eq_ok_iff]
          exact ⟨amount, rfl, rfl⟩
      | false =>
          rw [hzero harg]
          rfl

/-- The accounts are taken from the front of the list, and accounts beyond are ignored. -/
theorem parse_eq_ok_iff (name : InstructionName) (accounts : List Pubkey) (amount : UInt64)
    (c : Call) :
    Call.parse name accounts amount = .ok c ↔
      c.name = name ∧ (takesArgument name = true → c.argument = amount) ∧ c.keys <+: accounts := by
  constructor
  · intro h
    -- one case for each handler with enough accounts, and one for all the rest
    unfold Call.parse at h
    split at h
    · obtain rfl := Except.ok.inj h
      exact ⟨rfl, fun _ => rfl, ⟨_, rfl⟩⟩
    · obtain rfl := Except.ok.inj h
      exact ⟨rfl, fun _ => rfl, ⟨_, rfl⟩⟩
    · obtain rfl := Except.ok.inj h
      exact ⟨rfl, fun _ => rfl, ⟨_, rfl⟩⟩
    · obtain rfl := Except.ok.inj h
      exact ⟨rfl, fun _ => rfl, ⟨_, rfl⟩⟩
    · obtain rfl := Except.ok.inj h
      exact ⟨rfl, fun harg => absurd harg (by decide), ⟨_, rfl⟩⟩
    · obtain rfl := Except.ok.inj h
      exact ⟨rfl, fun _ => rfl, ⟨_, rfl⟩⟩
    · obtain rfl := Except.ok.inj h
      exact ⟨rfl, fun _ => rfl, ⟨_, rfl⟩⟩
    · obtain rfl := Except.ok.inj h
      exact ⟨rfl, fun _ => rfl, ⟨_, rfl⟩⟩
    · cases h
  · rintro ⟨rfl, hamount, ⟨rest, rfl⟩⟩
    cases c with
    | transferDelegateAuthority a => rfl
    | _ =>
        obtain rfl := hamount rfl
        rfl

theorem argument_eq_zero {c : Call} (h : takesArgument c.name = false) : c.argument = 0 := by
  cases c with
  | transferDelegateAuthority a => rfl
  | _ => cases h

/-- A byte string with an account list is accepted as an instruction exactly when the data and the
accounts that the client sends for it stand in front. -/
theorem dispatch_eq_ok_iff (data : List UInt8) (accounts : List Pubkey) (c : Call) :
    dispatch data accounts = .ok c ↔ c.data <+: data ∧ c.keys <+: accounts := by
  simp only [dispatch, bind_eq_ok_iff, Prod.exists, read_eq_ok_iff, mapError_eq_ok_iff,
    parse_eq_ok_iff]
  constructor
  · rintro ⟨name, amount, ⟨hdata, hzero⟩, rfl, hamount, hkeys⟩
    have heq : c.argument = amount := by
      cases harg : takesArgument c.name with
      | true => exact hamount harg
      | false => rw [hzero harg, argument_eq_zero harg]
    rw [Call.data, heq]
    exact ⟨hdata, hkeys⟩
  · rintro ⟨hdata, hkeys⟩
    exact ⟨c.name, c.argument, ⟨hdata, argument_eq_zero⟩, rfl, fun _ => rfl, hkeys⟩

/-- What is accepted runs as the instruction it is read as. -/
theorem entry_of_dispatch {data : List UInt8} {accounts : List Pubkey} {c : Call}
    (h : dispatch data accounts = .ok c) (cx : Cx) (s : State) :
    entry cx accounts data s = mapError .program (c.run cx s) := by
  obtain ⟨⟨name, amount⟩, hread, hparse⟩ := (bind_eq_ok_iff ..).1 h
  have hcall : Call.parse name accounts amount = .ok c := (mapError_eq_ok_iff ..).1 hparse
  simp only [entry, hread, handle, hcall, bind, Except.bind]

/-- Nothing else runs. -/
theorem entry_of_refused {data : List UInt8} {accounts : List Pubkey} {e : EntryError}
    (h : dispatch data accounts = .error e) (cx : Cx) (s : State) :
    ∃ e', entry cx accounts data s = .error e' := by
  cases hentry : entry cx accounts data s with
  | error e' => exact ⟨e', rfl⟩
  | ok s' =>
      obtain ⟨⟨name, amount⟩, hread, hhandle⟩ := (bind_eq_ok_iff ..).1 hentry
      obtain ⟨c, hparse, -⟩ := handle_eq_ok_iff.1 ((mapError_eq_ok_iff ..).1 hhandle)
      have hdispatch : dispatch data accounts = .ok c :=
        (bind_eq_ok_iff ..).2 ⟨_, hread, (mapError_eq_ok_iff ..).2 hparse⟩
      rw [hdispatch] at h
      cases h

/-! ## What the program refuses -/

theorem find_eq_none_iff (data : List UInt8) (h : 8 ≤ data.length) :
    (handlers.find? fun name => identifier name = data.take 8) = none ↔
      ∀ name, ¬ identifier name <+: data := by
  rw [List.find?_eq_none]
  constructor
  · intro hnone name hprefix
    refine hnone name (mem_handlers name) (decide_eq_true ?_)
    obtain ⟨rest, rfl⟩ := hprefix
    exact (List.take_left' (length_identifier name)).symm
  · intro hno name _ htest
    refine hno name ?_
    rw [of_decide_eq_true htest]
    exact List.take_prefix 8 data

theorem u64_decode_eq_none_iff (bs : List UInt8) : u64.decode bs = none ↔ bs.length < 8 := by
  show (Option.map _ (if h : 8 ≤ bs.length then _ else none)) = none ↔ _
  rw [Option.map_eq_none_iff]
  split
  · next hlen =>
      simp only [reduceCtorEq, false_iff]
      omega
  · next hlen =>
      simp only [true_iff]
      omega

/-- Reading behind an identifier. -/
theorem read_identifier_append (name : InstructionName) (rest : List UInt8) :
    read (identifier name ++ rest) =
      if takesArgument name then
        match u64.decode rest with
        | some amount => .ok (name, amount)
        | none => .error .instructionDidNotDeserialize
      else .ok (name, 0) := by
  have hlen : 8 ≤ (identifier name ++ rest).length := by
    rw [List.length_append, length_identifier]
    exact Nat.le_add_right _ _
  simp only [read, sighash_handlerName, require, if_pos hlen,
    List.take_left' (length_identifier name), List.drop_left' (length_identifier name),
    find_identifier, orError, bind, Except.bind, pure, Except.pure]
  cases takesArgument name with
  | false => rfl
  | true =>
      cases u64.decode rest with
      | none => rfl
      | some amount => rfl

/-- Fewer than eight bytes name no handler. -/
theorem read_of_short {data : List UInt8} (h : data.length < 8) :
    read data = .error .instructionMissing := by
  have hlen : ¬ 8 ≤ data.length := by omega
  simp only [read, require, if_neg hlen, bind, Except.bind]

theorem read_of_unknown {data : List UInt8} (hlen : 8 ≤ data.length)
    (hno : ∀ name, ¬ identifier name <+: data) :
    read data = .error (unhandled (data.take 8)) := by
  simp only [read, sighash_handlerName, require, if_pos hlen, (find_eq_none_iff data hlen).2 hno,
    orError, bind, Except.bind]

theorem take_eq_iff {data tag : List UInt8} (htag : tag.length = 8) :
    data.take 8 = tag ↔ tag <+: data := by
  rw [← htag, eq_comm, List.prefix_iff_eq_take]

/-- The tags of the framework are none of the identifiers. -/
theorem not_prefix_of_tag {data tag : List UInt8} (htag : tag = idlTag ∨ tag = eventTag)
    (h : tag <+: data) (name : InstructionName) : ¬ identifier name <+: data := by
  intro hname
  have htake : tag = identifier name := by
    have hlen : tag.length = 8 := by rcases htag with rfl | rfl <;> rfl
    rw [← (take_eq_iff hlen).2 h, (take_eq_iff (length_identifier name)).2 hname]
  rcases htag with rfl | rfl
  · cases name <;> cases htake
  · cases name <;> cases htake

/-- Bytes that are no handler's are told apart by the two tags. -/
theorem unhandled_eq_iff {data : List UInt8} {e : EntryError} :
    unhandled (data.take 8) = e ↔
      (e = .idlInstruction ∧ idlTag <+: data) ∨ (e = .eventInstructionStub ∧ eventTag <+: data) ∨
        (e = .instructionFallbackNotFound ∧ ¬ idlTag <+: data ∧ ¬ eventTag <+: data) := by
  have hidl : data.take 8 = idlTag ↔ idlTag <+: data := take_eq_iff rfl
  have hevent : data.take 8 = eventTag ↔ eventTag <+: data := take_eq_iff rfl
  have hne : idlTag ≠ eventTag := by decide
  rw [← hidl, ← hevent, unhandled]
  split
  · next h =>
      rw [h]
      simp [hne, eq_comm]
  · next h =>
      split
      · next h' => simp [h', hne.symm, eq_comm]
      · next h' => simp [h, h', eq_comm]

theorem read_of_cut {name : InstructionName} {rest : List UInt8}
    (harg : takesArgument name = true) (hrest : rest.length < 8) :
    read (identifier name ++ rest) = .error .instructionDidNotDeserialize := by
  rw [read_identifier_append, if_pos harg, (u64_decode_eq_none_iff rest).2 hrest]

/-- Behind an identifier the argument is read if its bytes are there. -/
theorem read_of_whole {name : InstructionName} {rest : List UInt8}
    (h : takesArgument name = true → 8 ≤ rest.length) :
    ∃ amount, read (identifier name ++ rest) = .ok (name, amount) := by
  rw [read_identifier_append]
  cases harg : takesArgument name with
  | false => exact ⟨0, rfl⟩
  | true =>
      cases hx : u64.decode rest with
      | some amount => exact ⟨amount, rfl⟩
      | none =>
          have hshort := (u64_decode_eq_none_iff rest).1 hx
          have hlong := h harg
          omega

/-- Eight bytes are needed for the handler and, where it has an argument, eight more; the two tags
of the framework are no handlers. -/
theorem read_eq_error_iff (data : List UInt8) (e : EntryError) :
    read data = .error e ↔
      (e = .instructionMissing ∧ data.length < 8) ∨
      (e = .idlInstruction ∧ idlTag <+: data) ∨
      (e = .eventInstructionStub ∧ eventTag <+: data) ∨
      (e = .instructionFallbackNotFound ∧ 8 ≤ data.length ∧
        (∀ name, ¬ identifier name <+: data) ∧ ¬ idlTag <+: data ∧ ¬ eventTag <+: data) ∨
      (e = .instructionDidNotDeserialize ∧ data.length < 16 ∧
        ∃ name, takesArgument name = true ∧ identifier name <+: data) := by
  constructor
  · intro h
    by_cases hlen : data.length < 8
    · rw [read_of_short hlen] at h
      exact Or.inl ⟨(Except.error.inj h).symm, hlen⟩
    · by_cases hname : ∃ name, identifier name <+: data
      · obtain ⟨name, rest, rfl⟩ := hname
        have hcut : takesArgument name = true ∧ rest.length < 8 := by
          -- otherwise the data would have been read
          by_contra hwhole
          have hargument : takesArgument name = true → 8 ≤ rest.length := by
            intro harg
            by_contra hshort
            exact hwhole ⟨harg, by omega⟩
          obtain ⟨amount, hread⟩ := read_of_whole hargument
          rw [hread] at h
          cases h
        rw [read_of_cut hcut.1 hcut.2] at h
        refine Or.inr (Or.inr (Or.inr (Or.inr ⟨(Except.error.inj h).symm, ?_, name, hcut.1, rest,
          rfl⟩)))
        rw [List.length_append, length_identifier]
        omega
      · have hno : ∀ name, ¬ identifier name <+: data := fun name hn => hname ⟨name, hn⟩
        rw [read_of_unknown (by omega) hno] at h
        rcases unhandled_eq_iff.1 (Except.error.inj h) with hidl | hevent | ⟨he, htags⟩
        · exact Or.inr (Or.inl hidl)
        · exact Or.inr (Or.inr (Or.inl hevent))
        · exact Or.inr (Or.inr (Or.inr (Or.inl ⟨he, by omega, hno, htags⟩)))
  · rintro (⟨rfl, hshort⟩ | ⟨rfl, htag⟩ | ⟨rfl, htag⟩ | ⟨rfl, hlen, hno, htags⟩ |
      ⟨rfl, hlen, name, harg, rest, rfl⟩)
    · exact read_of_short hshort
    · rw [read_of_unknown htag.length_le (not_prefix_of_tag (Or.inl rfl) htag)]
      exact congrArg _ (unhandled_eq_iff.2 (Or.inl ⟨rfl, htag⟩))
    · rw [read_of_unknown htag.length_le (not_prefix_of_tag (Or.inr rfl) htag)]
      exact congrArg _ (unhandled_eq_iff.2 (Or.inr (Or.inl ⟨rfl, htag⟩)))
    · rw [read_of_unknown hlen hno]
      exact congrArg _ (unhandled_eq_iff.2 (Or.inr (Or.inr ⟨rfl, htags⟩)))
    · rw [List.length_append, length_identifier] at hlen
      exact read_of_cut harg (by omega)

/-! ## Calls between programs -/

/-- The data that a handler builds for a call to another program: `sighash` of the name, then the
amount. -/
def instructionData (ix : Instruction) : List UInt8 :=
  sighash "global" (handlerName ix.discriminator.name) ++ u64.encode ix.amount

theorem parse_transfer_amount (accounts : List Pubkey) (x y : UInt64) :
    Call.parse .transferDelegateAuthority accounts x =
      Call.parse .transferDelegateAuthority accounts y := by
  match accounts with
  | [] => rfl
  | [_] => rfl
  | [_, _] => rfl
  | _ :: _ :: _ :: _ => rfl

/-- A program with this entry point reads such a call as it was meant. For the one handler without
an argument the amount is ignored. -/
theorem entry_data (cx : Cx) (ix : Instruction) (s : State) :
    entry cx (ix.accounts.map (·.pubkey)) (instructionData ix) s =
      mapError .program (processInstruction cx ix s) := by
  have hread : read (instructionData ix) = .ok (ix.discriminator.name,
      if takesArgument ix.discriminator.name then ix.amount else 0) := by
    rw [instructionData, sighash_handlerName, read_identifier_append, Codec.decode_encode]
    cases takesArgument ix.discriminator.name with
    | true => rfl
    | false => rfl
  have hparse : Call.parse ix.discriminator.name (ix.accounts.map (·.pubkey))
      (if takesArgument ix.discriminator.name then ix.amount else 0) =
        Call.parse ix.discriminator.name (ix.accounts.map (·.pubkey)) ix.amount := by
    cases hname : ix.discriminator.name with
    | transferDelegateAuthority => exact parse_transfer_amount ..
    | _ => rfl
  simp only [entry, processInstruction, handle, hread, hparse, bind, Except.bind]

end Wire

/-! ## Runs of byte strings -/

/-- A transaction as the runtime gets it: an instruction of the program is a byte string. -/
inductive RawAction where
  | invoke (programs : Programs) (p : Privileges Pubkey) (accounts : List Pubkey)
      (data : List UInt8)
  | token (p : Privileges Pubkey) (program : Pubkey) (ix : TokenIx Pubkey)
  | create (p : Privileges Pubkey) (key wallet tokenProgram mint : Pubkey)

namespace RawAction

def attempt (findBump : Pubkey → UInt8) : RawAction → State → Except Wire.EntryError State
  | invoke programs p accounts data, s =>
    Wire.entry (Runtime.cx ⟨findBump, programs⟩ p) accounts data s
  | token p program ix, s => mapError .program ((Action.token p program ix).attempt findBump s)
  | create p key wallet tokenProgram mint, s =>
    mapError .program ((Action.create p key wallet tokenProgram mint).attempt findBump s)

/-- The transaction with its bytes read, if they are accepted. -/
def read : RawAction → Option Action
  | invoke programs p accounts data =>
      (Wire.dispatch data accounts).toOption.map (Action.call programs p)
  | token p program ix => some (.token p program ix)
  | create p key wallet tokenProgram mint => some (.create p key wallet tokenProgram mint)

/-- The transaction that the generated client submits. -/
def write : Action → RawAction
  | .call programs p c => invoke programs p c.keys c.data
  | .token p program ix => token p program ix
  | .create p key wallet tokenProgram mint => create p key wallet tokenProgram mint

/-- The transaction has the property `Q` of its privileges, and the outside programs have `P`. -/
def Submitted (Q : Privileges Pubkey → Prop) (P : Programs → Prop) : RawAction → Prop
  | invoke programs p _ _ => Q p ∧ P programs
  | token p _ _ => Q p
  | create p _ _ _ _ => Q p

/-- The client's bytes are read as what they were written for. -/
theorem read_write (a : Action) : (write a).read = some a := by
  cases a with
  | call programs p c =>
      have h : Wire.dispatch c.data c.keys = .ok c :=
        (Wire.dispatch_eq_ok_iff ..).2 ⟨List.prefix_rfl, List.prefix_rfl⟩
      rw [write, read, h]
      rfl
  | token p program ix => rfl
  | create p key wallet tokenProgram mint => rfl

end RawAction

section Raw

variable {findBump : Pubkey → UInt8}

/-- Bytes that are accepted run as the instruction they are read as. -/
theorem attempt_of_read {r : RawAction} {a : Action} (h : r.read = some a) (s : State) :
    r.attempt findBump s = mapError .program (a.attempt findBump s) := by
  cases r with
  | invoke programs p accounts data =>
      obtain ⟨c, hc, rfl⟩ := Option.map_eq_some_iff.1 h
      cases hd : Wire.dispatch data accounts with
      | error e =>
          rw [hd] at hc
          cases hc
      | ok c' =>
          rw [hd] at hc
          obtain rfl := Option.some.inj hc
          exact Wire.entry_of_dispatch hd ..
  | token p program ix =>
      obtain rfl := Option.some.inj h
      rfl
  | create p key wallet tokenProgram mint =>
      obtain rfl := Option.some.inj h
      rfl

/-- Bytes that are refused change nothing. -/
theorem apply_of_read_none {r : RawAction} (h : r.read = none) (s : State) :
    Rollback.apply (RawAction.attempt findBump) r s = s := by
  cases r with
  | invoke programs p accounts data =>
      cases hd : Wire.dispatch data accounts with
      | error e =>
          obtain ⟨e', he'⟩ := Wire.entry_of_refused hd (Runtime.cx ⟨findBump, programs⟩ p) s
          exact Rollback.apply_of_error he'
      | ok c =>
          rw [RawAction.read, hd] at h
          cases h
  | token p program ix => cases h
  | create p key wallet tokenProgram mint => cases h

theorem apply_of_read_some {r : RawAction} {a : Action} (h : r.read = some a) (s : State) :
    Rollback.apply (RawAction.attempt findBump) r s =
      Rollback.apply (Action.attempt findBump) a s := by
  rw [Rollback.apply, attempt_of_read h, Rollback.apply]
  cases a.attempt findBump s with
  | error e => rfl
  | ok s' => rfl

/-- A run of byte strings is the run of what is read of them. -/
theorem rawRun_eq (s : State) (rs : List RawAction) :
    Rollback.run (RawAction.attempt findBump) s rs =
      run findBump s (rs.filterMap RawAction.read) := by
  induction rs generalizing s with
  | nil => rfl
  | cons r rs ih =>
      rw [Rollback.run_cons, ih]
      cases h : r.read with
      | none => rw [List.filterMap_cons_none h, apply_of_read_none h]
      | some a =>
          rw [List.filterMap_cons_some h, apply_of_read_some h]
          rfl

end Raw

/-- The states that can be reached by submitting bytes are those that the typed instructions reach,
whatever is required of the signatures and of the outside programs. -/
theorem reachable_iff (findBump : Pubkey → UInt8) (Q : Privileges Pubkey → Prop)
    (P : Programs → Prop) (s t : State) :
    (∃ rs : List RawAction, (∀ r ∈ rs, r.Submitted Q P) ∧
        Rollback.run (RawAction.attempt findBump) s rs = t) ↔
      ∃ as : List Action, (∀ a ∈ as, Q a.privileges ∧ a.Uses P) ∧ run findBump s as = t := by
  constructor
  · rintro ⟨rs, hrs, rfl⟩
    -- what no handler accepts is dropped, since it changes nothing
    refine ⟨rs.filterMap RawAction.read, ?_, (rawRun_eq s rs).symm⟩
    intro a ha
    obtain ⟨r, hr, hread⟩ := List.mem_filterMap.1 ha
    have hsub := hrs r hr
    cases r with
    | invoke programs p accounts data =>
        obtain ⟨c, -, rfl⟩ := Option.map_eq_some_iff.1 hread
        exact hsub
    | token p program ix =>
        obtain rfl := Option.some.inj hread
        exact ⟨hsub, trivial⟩
    | create p key wallet tokenProgram mint =>
        obtain rfl := Option.some.inj hread
        exact ⟨hsub, trivial⟩
  · rintro ⟨as, has, rfl⟩
    refine ⟨as.map RawAction.write, ?_, ?_⟩
    · intro r hr
      obtain ⟨a, ha, rfl⟩ := List.mem_map.1 hr
      obtain ⟨hq, hp⟩ := has a ha
      cases a with
      | call programs p c => exact ⟨hq, hp⟩
      | token p program ix => exact hq
      | create p key wallet tokenProgram mint => exact hq
    · rw [rawRun_eq, List.filterMap_map]
      have hread : RawAction.read ∘ RawAction.write = some := funext RawAction.read_write
      rw [hread, List.filterMap_some]

end AdraLrt
