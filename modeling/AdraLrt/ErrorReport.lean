import AdraLrt.Text.Pattern
import AdraLrt.Wire

/-!
# Errors as the client reads them

A failed instruction returns a number, which the runtime writes into the log of the transaction in
hexadecimal. The generated client takes it from there: the first line of the log that says of some
program that it failed with a custom error is read, and where it names this program, the number is
looked up among the error classes (`fromTxError`).

`fromTxError_eq_some_iff` is what the client reports for every log. Where the line of the failed
program comes first, the report has the name of the error that the program returned, and its message
where the error is the program's own, except for three framework errors that the client does not
know (`fromTxError_failureLine`). The pattern is not anchored to the beginning of a line, so a text
that a program logs is taken for the runtime's word (`fromTxError_logLine`).
-/

set_option autoImplicit false

namespace AdraLrt

open Text

/-! ## The numbers that the program returns -/

/-- The custom errors count up from 6000 in their order. -/
def LRTPoolError.code : LRTPoolError → Nat
  | nonZeroRstMintSupply => 6000
  | insufficientSSOLFundsForWithdraw => 6001
  | insufficientStakedSOLFundsForWithdraw => 6002
  | insufficientSSOLFundsForDelegate => 6003
  | insufficientAvsTokenForUndelegate => 6004
  | missingAccounts => 6005
  | outputMintLimitExceeded => 6006
  | invalidDelegateAuthority => 6007

def LRTPoolError.name : LRTPoolError → String
  | nonZeroRstMintSupply => "NonZeroRstMintSupply"
  | insufficientSSOLFundsForWithdraw => "InsufficientSSOLFundsForWithdraw"
  | insufficientStakedSOLFundsForWithdraw => "InsufficientStakedSOLFundsForWithdraw"
  | insufficientSSOLFundsForDelegate => "InsufficientSSOLFundsForDelegate"
  | insufficientAvsTokenForUndelegate => "InsufficientAvsTokenForUndelegate"
  | missingAccounts => "MissingAccounts"
  | outputMintLimitExceeded => "OutputMintLimitExceeded"
  | invalidDelegateAuthority => "InvalidDelegateAuthority"

/-- The numbers of the framework. -/
def AnchorError.code : AnchorError → Nat
  | constraintMut => 2000
  | constraintHasOne => 2001
  | constraintRaw => 2003
  | constraintSeeds => 2006
  | constraintAssociated => 2009
  | constraintAddress => 2012
  | constraintTokenMint => 2014
  | constraintTokenOwner => 2015
  | constraintMintMintAuthority => 2016
  | constraintMintFreezeAuthority => 2017
  | constraintMintDecimals => 2018
  | constraintMintTokenProgram => 2022
  | constraintAssociatedTokenTokenProgram => 2023
  | accountNotEnoughKeys => 3005
  | accountOwnedByWrongProgram => 3007
  | invalidProgramId => 3008
  | accountNotSigner => 3010
  | accountNotInitialized => 3012
  | accountNotAssociatedTokenAccount => 3014

def AnchorError.name : AnchorError → String
  | constraintMut => "ConstraintMut"
  | constraintHasOne => "ConstraintHasOne"
  | constraintRaw => "ConstraintRaw"
  | constraintSeeds => "ConstraintSeeds"
  | constraintAssociated => "ConstraintAssociated"
  | constraintAddress => "ConstraintAddress"
  | constraintTokenMint => "ConstraintTokenMint"
  | constraintTokenOwner => "ConstraintTokenOwner"
  | constraintMintMintAuthority => "ConstraintMintMintAuthority"
  | constraintMintFreezeAuthority => "ConstraintMintFreezeAuthority"
  | constraintMintDecimals => "ConstraintMintDecimals"
  | constraintMintTokenProgram => "ConstraintMintTokenProgram"
  | constraintAssociatedTokenTokenProgram => "ConstraintAssociatedTokenTokenProgram"
  | accountNotEnoughKeys => "AccountNotEnoughKeys"
  | accountOwnedByWrongProgram => "AccountOwnedByWrongProgram"
  | invalidProgramId => "InvalidProgramId"
  | accountNotSigner => "AccountNotSigner"
  | accountNotInitialized => "AccountNotInitialized"
  | accountNotAssociatedTokenAccount => "AccountNotAssociatedTokenAccount"

namespace Wire.EntryError

/-- The number that the entry point or a handler returns. The errors of a called program and of the
runtime are not among them, nor those of the framework's handlers for the IDL account. -/
def code : EntryError → Option Nat
  | instructionMissing => some 100
  | idlInstruction => none
  | eventInstructionStub => some 1500
  | instructionFallbackNotFound => some 101
  | instructionDidNotDeserialize => some 102
  | program (.anchor e) => some e.code
  | program (.lrt e) => some e.code
  | program _ => none

/-- The name of the error, where it has a number. -/
def name : EntryError → Option String
  | instructionMissing => some "InstructionMissing"
  | idlInstruction => none
  | eventInstructionStub => some "EventInstructionStub"
  | instructionFallbackNotFound => some "InstructionFallbackNotFound"
  | instructionDidNotDeserialize => some "InstructionDidNotDeserialize"
  | program (.anchor e) => some e.name
  | program (.lrt e) => some e.name
  | program _ => none

end Wire.EntryError

/-! ## The classes of the client -/

namespace ErrorReport

/-- A class of the client; the text of the exception is the code, a colon and `msg`. -/
structure ErrorClass where
  code : Nat
  name : String
  msg : String
deriving DecidableEq, Repr

/-- What the client throws: an instance of a class, with the log that it was made from. -/
structure ClientError where
  kind : ErrorClass
  logs : List (List Char)
deriving DecidableEq, Repr

/-- The classes of `custom.ts`. -/
def customErrors : List ErrorClass :=
  [⟨6000, "NonZeroRstMintSupply", "The RST mint supply must be zero during initialization"⟩,
   ⟨6001, "InsufficientSSOLFundsForWithdraw", "Insufficient sSOL funds for withdraw"⟩,
   ⟨6002, "InsufficientStakedSOLFundsForWithdraw", "Insufficient Staked SOL funds for withdraw"⟩,
   ⟨6003, "InsufficientSSOLFundsForDelegate", "Insufficient sSOL funds for delegate"⟩,
   ⟨6004, "InsufficientAvsTokenForUndelegate", "Insufficient Staked SOL funds for delegate"⟩,
   ⟨6005, "MissingAccounts", "Missing necessary accounts"⟩,
   ⟨6006, "OutputMintLimitExceeded", "Mint output exceeds limit"⟩,
   ⟨6007, "InvalidDelegateAuthority", "Invalid delegate authority"⟩]

/-- The classes of `anchor.ts`. -/
def anchorErrors : List ErrorClass :=
  [⟨100, "InstructionMissing", "8 byte instruction identifier not provided"⟩,
   ⟨101, "InstructionFallbackNotFound", "Fallback functions are not supported"⟩,
   ⟨102, "InstructionDidNotDeserialize", "The program could not deserialize the given instruction"⟩,
   ⟨103, "InstructionDidNotSerialize", "The program could not serialize the given instruction"⟩,
   ⟨1000, "IdlInstructionStub", "The program was compiled without idl instructions"⟩,
   ⟨1001, "IdlInstructionInvalidProgram",
      "The transaction was given an invalid program for the IDL instruction"⟩,
   ⟨2000, "ConstraintMut", "A mut constraint was violated"⟩,
   ⟨2001, "ConstraintHasOne", "A has one constraint was violated"⟩,
   ⟨2002, "ConstraintSigner", "A signer constraint was violated"⟩,
   ⟨2003, "ConstraintRaw", "A raw constraint was violated"⟩,
   ⟨2004, "ConstraintOwner", "An owner constraint was violated"⟩,
   ⟨2005, "ConstraintRentExempt", "A rent exemption constraint was violated"⟩,
   ⟨2006, "ConstraintSeeds", "A seeds constraint was violated"⟩,
   ⟨2007, "ConstraintExecutable", "An executable constraint was violated"⟩,
   ⟨2008, "ConstraintState", "Deprecated Error, feel free to replace with something else"⟩,
   ⟨2009, "ConstraintAssociated", "An associated constraint was violated"⟩,
   ⟨2010, "ConstraintAssociatedInit", "An associated init constraint was violated"⟩,
   ⟨2011, "ConstraintClose", "A close constraint was violated"⟩,
   ⟨2012, "ConstraintAddress", "An address constraint was violated"⟩,
   ⟨2013, "ConstraintZero", "Expected zero account discriminant"⟩,
   ⟨2014, "ConstraintTokenMint", "A token mint constraint was violated"⟩,
   ⟨2015, "ConstraintTokenOwner", "A token owner constraint was violated"⟩,
   ⟨2016, "ConstraintMintMintAuthority", "A mint mint authority constraint was violated"⟩,
   ⟨2017, "ConstraintMintFreezeAuthority", "A mint freeze authority constraint was violated"⟩,
   ⟨2018, "ConstraintMintDecimals", "A mint decimals constraint was violated"⟩,
   ⟨2019, "ConstraintSpace", "A space constraint was violated"⟩,
   ⟨2020, "ConstraintAccountIsNone", "A required account for the constraint is None"⟩,
   ⟨2500, "RequireViolated", "A require expression was violated"⟩,
   ⟨2501, "RequireEqViolated", "A require_eq expression was violated"⟩,
   ⟨2502, "RequireKeysEqViolated", "A require_keys_eq expression was violated"⟩,
   ⟨2503, "RequireNeqViolated", "A require_neq expression was violated"⟩,
   ⟨2504, "RequireKeysNeqViolated", "A require_keys_neq expression was violated"⟩,
   ⟨2505, "RequireGtViolated", "A require_gt expression was violated"⟩,
   ⟨2506, "RequireGteViolated", "A require_gte expression was violated"⟩,
   ⟨3000, "AccountDiscriminatorAlreadySet",
      "The account discriminator was already set on this account"⟩,
   ⟨3001, "AccountDiscriminatorNotFound", "No 8 byte discriminator was found on the account"⟩,
   ⟨3002, "AccountDiscriminatorMismatch", "8 byte discriminator did not match what was expected"⟩,
   ⟨3003, "AccountDidNotDeserialize", "Failed to deserialize the account"⟩,
   ⟨3004, "AccountDidNotSerialize", "Failed to serialize the account"⟩,
   ⟨3005, "AccountNotEnoughKeys", "Not enough account keys given to the instruction"⟩,
   ⟨3006, "AccountNotMutable", "The given account is not mutable"⟩,
   ⟨3007, "AccountOwnedByWrongProgram",
      "The given account is owned by a different program than expected"⟩,
   ⟨3008, "InvalidProgramId", "Program ID was not as expected"⟩,
   ⟨3009, "InvalidProgramExecutable", "Program account is not executable"⟩,
   ⟨3010, "AccountNotSigner", "The given account did not sign"⟩,
   ⟨3011, "AccountNotSystemOwned", "The given account is not owned by the system program"⟩,
   ⟨3012, "AccountNotInitialized", "The program expected this account to be already initialized"⟩,
   ⟨3013, "AccountNotProgramData", "The given account is not a program data account"⟩,
   ⟨3014, "AccountNotAssociatedTokenAccount",
      "The given account is not the associated token account"⟩,
   ⟨3015, "AccountSysvarMismatch", "The given public key does not match the required sysvar"⟩,
   ⟨3016, "AccountReallocExceedsLimit",
      "The account reallocation exceeds the MAX_PERMITTED_DATA_INCREASE limit"⟩,
   ⟨3017, "AccountDuplicateReallocs", "The account was duplicated for more than one reallocation"⟩,
   ⟨4100, "DeclaredProgramIdMismatch",
      "The declared program id does not match the actual program id"⟩,
   ⟨5000, "Deprecated", "The API being used is deprecated and should no longer be used"⟩]

/-- `custom.fromCode`. -/
def customFromCode (code : Nat) : Option ErrorClass :=
  customErrors.find? (·.code = code)

/-- `anchor.fromCode`. -/
def anchorFromCode (code : Nat) : Option ErrorClass :=
  anchorErrors.find? (·.code = code)

/-- `fromCode`; `none` stands for the number that is not one. -/
def fromCode (code : Option Nat) (logs : List (List Char)) : Option ClientError :=
  match code with
  | none => none
  | some code =>
      (if 6000 ≤ code then customFromCode code else anchorFromCode code).map (⟨·, logs⟩)

/-! ## Reading the log -/

/-- `\w`. -/
def isWord (c : Char) : Bool :=
  c.isAlphanum || c = '_'

/-- `/Program (\w+) failed: custom program error: (\w+)/`. -/
def errorRe : List (Item Char) :=
  [.text "Program ".toList, .run isWord, .text " failed: custom program error: ".toList,
    .run isWord]

/-- `errorRe.exec`, without the match as a whole. -/
def exec (line : List Char) : Option (List Char × List Char) :=
  match search errorRe line with
  | some [programIdRaw, codeRaw] => some (programIdRaw, codeRaw)
  | _ => none

/-- The value of a hexadecimal digit. -/
def hexDigit (c : Char) : Option Nat :=
  if '0' ≤ c ∧ c ≤ '9' then some (c.toNat - '0'.toNat)
  else if 'a' ≤ c ∧ c ≤ 'f' then some (10 + (c.toNat - 'a'.toNat))
  else if 'A' ≤ c ∧ c ≤ 'F' then some (10 + (c.toNat - 'A'.toNat))
  else none

/-- `parseInt` to the base sixteen of a text without spaces and signs: a leading `0x` is left out,
and the digits end at the first symbol that is none. The rounding of numbers above all codes is
not modelled. -/
def parseInt16 (codeRaw : List Char) : Option Nat :=
  let text := match codeRaw with
    | '0' :: 'x' :: rest => rest
    | '0' :: 'X' :: rest => rest
    | _ => codeRaw
  let digits := text.takeWhile fun c => (hexDigit c).isSome
  if digits = [] then none
  else some (digits.foldl (fun n c => 16 * n + (hexDigit c).getD 0) 0)

/-- `fromTxError`. An error that is no object with a list of log lines has no log here. -/
def fromTxError (err : Option (List (List Char))) (programId : List Char) : Option ClientError :=
  match err with
  | none => none
  | some logs =>
      match logs.findSome? exec with
      | none => none
      | some (programIdRaw, codeRaw) =>
          if programIdRaw ≠ programId then none else fromCode (parseInt16 codeRaw) logs

/-- A number as the runtime writes it. -/
def codeText (n : Nat) : List Char :=
  "0x".toList ++ Nat.toDigits 16 n

/-- The line that the runtime writes when a program returns a custom error. -/
def failureLine (program : List Char) (code : Nat) : List Char :=
  "Program ".toList ++ (program ++ (" failed: custom program error: ".toList ++ codeText code))

/-- The line that the runtime writes when a program logs a text. -/
def logLine (text : List Char) : List Char :=
  "Program log: ".toList ++ text

/-- A text that the pattern takes for an address or a code. -/
def IsWord (w : List Char) : Prop :=
  w ≠ [] ∧ ∀ c ∈ w, isWord c = true

/-- At this place of the line stands the runtime's text, with the address of a program and a code
that goes on as far as it can. -/
structure Mention (line before programIdRaw codeRaw after : List Char) : Prop where
  line_eq : line = before ++ ("Program ".toList ++ (programIdRaw ++
    (" failed: custom program error: ".toList ++ (codeRaw ++ after))))
  programId : IsWord programIdRaw
  code : IsWord codeRaw
  ends : ∀ c ∈ after.head?, isWord c = false

/-- The line mentions no failure. -/
def Silent (line : List Char) : Prop :=
  ∀ before programIdRaw codeRaw after, ¬ Mention line before programIdRaw codeRaw after

/-- The first failure that the line mentions is of this program with this code. -/
def Says (line programIdRaw codeRaw : List Char) : Prop :=
  ∃ before after, Mention line before programIdRaw codeRaw after ∧
    ∀ before' programIdRaw' codeRaw' after',
      Mention line before' programIdRaw' codeRaw' after' → before.length ≤ before'.length

/-! ## The pattern -/

theorem matchAt_errorRe {programIdRaw codeRaw after : List Char} (hid : IsWord programIdRaw)
    (hcode : IsWord codeRaw) (hends : ∀ c ∈ after.head?, isWord c = false) :
    matchAt errorRe ("Program ".toList ++ (programIdRaw ++
      (" failed: custom program error: ".toList ++ (codeRaw ++ after)))) =
        some [programIdRaw, codeRaw] := by
  have hblank : " failed: custom program error: ".toList =
      ' ' :: "failed: custom program error: ".toList := rfl
  rw [errorRe, matchAt_text, hblank, matchAt_run_text hid.1 hid.2 (by decide),
    matchAt_last hcode.1 hcode.2 hends]
  rfl

/-- A match at the beginning is a mention there; the code may have been cut short. -/
theorem mention_of_reads {rest : List Char} {caps : List (List Char)}
    (h : Reads errorRe rest caps) :
    ∃ programIdRaw codeRaw after, Mention rest [] programIdRaw codeRaw after := by
  cases h with
  | text _ h =>
      cases h with
      | @run _ _ _ _ id hne hall h =>
          cases h with
          | text _ h =>
              cases h with
              | @run _ s _ _ w hne' hall' _ =>
                  refine ⟨id, w ++ s.takeWhile isWord, s.dropWhile isWord, ?_, ⟨hne, hall⟩, ?_, ?_⟩
                  · rw [List.append_assoc, List.takeWhile_append_dropWhile]
                    rfl
                  · refine ⟨fun hnil => hne' (List.append_eq_nil_iff.1 hnil).1, ?_⟩
                    intro c hc
                    rcases List.mem_append.1 hc with hc | hc
                    · exact hall' c hc
                    · exact List.mem_takeWhile_imp hc
                  · intro c hc
                    have hstop := List.head?_dropWhile_not isWord s
                    rw [Option.mem_def.1 hc] at hstop
                    simpa using hstop

theorem reads_of_mention {rest programIdRaw codeRaw after : List Char}
    (h : Mention rest [] programIdRaw codeRaw after) :
    Reads errorRe rest [programIdRaw, codeRaw] := by
  rw [h.line_eq]
  exact reads_of_matchAt (matchAt_errorRe h.programId h.code h.ends)

/-- A mention behind some text is a mention at the beginning of what is left. -/
theorem mention_append_iff (before rest programIdRaw codeRaw after : List Char) :
    Mention (before ++ rest) before programIdRaw codeRaw after ↔
      Mention rest [] programIdRaw codeRaw after := by
  constructor
  · intro h
    exact ⟨List.append_cancel_left h.line_eq, h.programId, h.code, h.ends⟩
  · intro h
    exact ⟨congrArg (before ++ ·) h.line_eq, h.programId, h.code, h.ends⟩

/-- Where a mention is, the line is what stands before it and the rest. -/
theorem Mention.split {line before programIdRaw codeRaw after : List Char}
    (h : Mention line before programIdRaw codeRaw after) :
    ∃ rest, line = before ++ rest ∧ Mention rest [] programIdRaw codeRaw after := by
  refine ⟨_, h.line_eq, ?_⟩
  exact ⟨rfl, h.programId, h.code, h.ends⟩

theorem search_eq_some_iff_says (line programIdRaw codeRaw : List Char) :
    search errorRe line = some [programIdRaw, codeRaw] ↔ Says line programIdRaw codeRaw := by
  rw [search_eq_some_iff]
  constructor
  · rintro ⟨before, rest, rfl, hmatch, hfirst⟩
    obtain ⟨id, code, after, hmention⟩ := mention_of_reads (reads_of_matchAt hmatch)
    have hcaps : some [id, code] = some [programIdRaw, codeRaw] := by
      rw [← hmatch, hmention.line_eq]
      exact (matchAt_errorRe hmention.programId hmention.code hmention.ends).symm
    cases hcaps
    refine ⟨before, after, (mention_append_iff ..).2 hmention, ?_⟩
    intro before' id' code' after' hother
    obtain ⟨rest', hline, hrest⟩ := hother.split
    exact hfirst before' rest' _ hline (reads_of_mention hrest)
  · rintro ⟨before, after, hmention, hfirst⟩
    obtain ⟨rest, rfl, hrest⟩ := hmention.split
    refine ⟨before, rest, rfl, ?_, ?_⟩
    · rw [hrest.line_eq]
      exact matchAt_errorRe hrest.programId hrest.code hrest.ends
    · intro before' rest' caps' hline hread
      obtain ⟨id, code, after', hother⟩ := mention_of_reads hread
      apply hfirst before' id code after'
      rw [hline]
      exact (mention_append_iff ..).2 hother

/-- What the pattern finds has its two groups. -/
theorem exists_of_search {line : List Char} {caps : List (List Char)}
    (h : search errorRe line = some caps) :
    ∃ programIdRaw codeRaw, caps = [programIdRaw, codeRaw] := by
  obtain ⟨before, rest, -, hmatch, -⟩ := (search_eq_some_iff ..).1 h
  obtain ⟨id, code, after, hmention⟩ := mention_of_reads (reads_of_matchAt hmatch)
  refine ⟨id, code, ?_⟩
  rw [hmention.line_eq, List.nil_append,
    matchAt_errorRe hmention.programId hmention.code hmention.ends] at hmatch
  exact (Option.some.inj hmatch).symm

theorem exec_eq_some_iff (line programIdRaw codeRaw : List Char) :
    exec line = some (programIdRaw, codeRaw) ↔ Says line programIdRaw codeRaw := by
  rw [← search_eq_some_iff_says, exec]
  cases hsearch : search errorRe line with
  | none =>
      constructor
      · intro h
        cases h
      · intro h
        cases h
  | some caps =>
      obtain ⟨id, code, rfl⟩ := exists_of_search hsearch
      constructor
      · intro h
        cases h
        rfl
      · intro h
        cases h
        rfl

theorem exec_eq_none_iff (line : List Char) : exec line = none ↔ Silent line := by
  have hnone : exec line = none ↔ search errorRe line = none := by
    rw [exec]
    cases hsearch : search errorRe line with
    | none => exact iff_of_true rfl rfl
    | some caps =>
        obtain ⟨id, code, rfl⟩ := exists_of_search hsearch
        constructor
        · intro h
          cases h
        · intro h
          cases h
  rw [hnone, search_eq_none_iff]
  constructor
  · intro h before id code after hmention
    obtain ⟨rest, hline, hrest⟩ := hmention.split
    exact h before rest _ hline (reads_of_mention hrest)
  · intro h before rest caps hline hread
    obtain ⟨id, code, after, hmention⟩ := mention_of_reads hread
    apply h before id code after
    rw [hline]
    exact (mention_append_iff ..).2 hmention

/-! ## The classes by their codes -/

theorem find_code_eq_some_iff {table : List ErrorClass} (h : (table.map (·.code)).Nodup) (n : Nat)
    (k : ErrorClass) : table.find? (·.code = n) = some k ↔ k ∈ table ∧ k.code = n := by
  induction table with
  | nil => simp
  | cons first table ih =>
      rw [List.map_cons, List.nodup_cons] at h
      by_cases hn : first.code = n
      · rw [List.find?_cons_of_pos (by simpa using hn)]
        constructor
        · intro heq
          cases heq
          exact ⟨List.mem_cons_self, hn⟩
        · rintro ⟨hmem, hk⟩
          rcases List.mem_cons.1 hmem with rfl | hmem
          · rfl
          · exact absurd (List.mem_map.2 ⟨k, hmem, hk.trans hn.symm⟩) h.1
      · rw [List.find?_cons_of_neg (by simpa using hn), ih h.2]
        constructor
        · rintro ⟨hmem, hk⟩
          exact ⟨List.mem_cons_of_mem _ hmem, hk⟩
        · rintro ⟨hmem, hk⟩
          rcases List.mem_cons.1 hmem with rfl | hmem
          · exact absurd hk hn
          · exact ⟨hmem, hk⟩

theorem customFromCode_eq_some_iff (n : Nat) (k : ErrorClass) :
    customFromCode n = some k ↔ k ∈ customErrors ∧ k.code = n :=
  find_code_eq_some_iff (by decide) n k

theorem anchorFromCode_eq_some_iff (n : Nat) (k : ErrorClass) :
    anchorFromCode n = some k ↔ k ∈ anchorErrors ∧ k.code = n :=
  find_code_eq_some_iff (by decide) n k

theorem le_code_of_mem_customErrors : ∀ k ∈ customErrors, 6000 ≤ k.code := by
  decide

theorem code_lt_of_mem_anchorErrors : ∀ k ∈ anchorErrors, k.code < 6000 := by
  decide

/-- The two tables are looked up as one. -/
theorem fromCode_eq_some_iff (code : Option Nat) (logs : List (List Char)) (e : ClientError) :
    fromCode code logs = some e ↔
      code = some e.kind.code ∧ e.kind ∈ customErrors ++ anchorErrors ∧ e.logs = logs := by
  obtain ⟨kind, logs'⟩ := e
  cases code with
  | none =>
      constructor
      · intro h
        cases h
      · rintro ⟨h, -⟩
        cases h
  | some n =>
      -- the numbers of the one table are below those of the other
      have hkind : (if 6000 ≤ n then customFromCode n else anchorFromCode n) = some kind ↔
          n = kind.code ∧ kind ∈ customErrors ++ anchorErrors := by
        rw [List.mem_append]
        split
        · rename_i hn
          rw [customFromCode_eq_some_iff]
          constructor
          · rintro ⟨hmem, hk⟩
            exact ⟨hk.symm, Or.inl hmem⟩
          · rintro ⟨hk, hmem | hmem⟩
            · exact ⟨hmem, hk.symm⟩
            · have := code_lt_of_mem_anchorErrors kind hmem
              omega
        · rename_i hn
          rw [anchorFromCode_eq_some_iff]
          constructor
          · rintro ⟨hmem, hk⟩
            exact ⟨hk.symm, Or.inr hmem⟩
          · rintro ⟨hk, hmem | hmem⟩
            · have := le_code_of_mem_customErrors kind hmem
              omega
            · exact ⟨hmem, hk.symm⟩
      rw [fromCode, Option.map_eq_some_iff, Option.some.injEq]
      constructor
      · rintro ⟨k, hk, heq⟩
        cases heq
        obtain ⟨hn, hmem⟩ := hkind.1 hk
        exact ⟨hn, hmem, rfl⟩
      · rintro ⟨hn, hmem, hlogs⟩
        refine ⟨kind, hkind.2 ⟨hn, hmem⟩, ?_⟩
        rw [← show logs' = logs from hlogs]

/-! ## Hexadecimal numbers -/

theorem hexDigit_digitChar : ∀ d, d < 16 → hexDigit (Nat.digitChar d) = some d := by
  decide

theorem isWord_digitChar : ∀ d, d < 16 → isWord (Nat.digitChar d) = true := by
  decide

/-- The digits of a number are digits, and reading them gives the number. -/
theorem toDigits_read (n : Nat) :
    (∀ c ∈ Nat.toDigits 16 n, ∃ d, d < 16 ∧ c = Nat.digitChar d) ∧
      (Nat.toDigits 16 n).foldl (fun n c => 16 * n + (hexDigit c).getD 0) 0 = n := by
  -- the last digit is the remainder, and the digits before it are those of the quotient
  induction n using Nat.strongRecOn with
  | ind n ih =>
      by_cases hn : n < 16
      · rw [Nat.toDigits_of_lt_base hn]
        constructor
        · intro c hc
          exact ⟨n, hn, List.mem_singleton.1 hc⟩
        · rw [List.foldl_cons, List.foldl_nil, hexDigit_digitChar n hn]
          exact Nat.zero_add n
      · have hlow : n % 16 < 16 := Nat.mod_lt n (by decide)
        obtain ⟨hdigits, hvalue⟩ := ih (n / 16) (by omega)
        rw [Nat.toDigits_of_base_le (by decide) (Nat.le_of_not_lt hn)]
        constructor
        · intro c hc
          rcases List.mem_append.1 hc with hc | hc
          · exact hdigits c hc
          · exact ⟨n % 16, hlow, List.mem_singleton.1 hc⟩
        · rw [List.foldl_append, hvalue, List.foldl_cons, List.foldl_nil,
            hexDigit_digitChar _ hlow]
          exact Nat.div_add_mod n 16

theorem parseInt16_codeText (n : Nat) : parseInt16 (codeText n) = some n := by
  obtain ⟨hdigits, hvalue⟩ := toDigits_read n
  have hall : (Nat.toDigits 16 n).takeWhile (fun c => (hexDigit c).isSome) = Nat.toDigits 16 n := by
    rw [List.takeWhile_eq_self_iff]
    intro c hc
    obtain ⟨d, hd, rfl⟩ := hdigits c hc
    rw [hexDigit_digitChar d hd]
    rfl
  show (if (Nat.toDigits 16 n).takeWhile (fun c => (hexDigit c).isSome) = [] then none
    else some (((Nat.toDigits 16 n).takeWhile fun c => (hexDigit c).isSome).foldl
      (fun n c => 16 * n + (hexDigit c).getD 0) 0)) = some n
  rw [hall, if_neg Nat.toDigits_ne_nil, hvalue]

theorem isWord_codeText (n : Nat) : IsWord (codeText n) := by
  refine ⟨List.cons_ne_nil _ _, ?_⟩
  intro c hc
  rcases List.mem_append.1 hc with hc | hc
  · have hmark : "0x".toList.all isWord = true := by decide
    exact List.all_eq_true.1 hmark c hc
  · obtain ⟨d, hd, rfl⟩ := (toDigits_read n).1 c hc
    exact isWord_digitChar d hd

/-- The runtime's line says what it was written for. -/
theorem says_failureLine {program : List Char} (h : IsWord program) (n : Nat) :
    Says (failureLine program n) program (codeText n) := by
  refine ⟨[], [], ⟨?_, h, isWord_codeText n, ?_⟩, fun _ _ _ _ _ => Nat.zero_le _⟩
  · rw [List.append_nil, List.nil_append]
    rfl
  · intro c hc
    cases hc

/-! ## What the client reports -/

/-- For every log: the first line with a mention decides, and of it the first mention; it has to be
of this program, with a code that the client has a class for. -/
theorem fromTxError_eq_some_iff (err : Option (List (List Char))) (programId : List Char)
    (e : ClientError) :
    fromTxError err programId = some e ↔
      err = some e.logs ∧ e.kind ∈ customErrors ++ anchorErrors ∧
        ∃ earlier line later codeRaw, e.logs = earlier ++ line :: later ∧
          (∀ l ∈ earlier, Silent l) ∧ Says line programId codeRaw ∧
            parseInt16 codeRaw = some e.kind.code := by
  cases err with
  | none =>
      constructor
      · intro h
        cases h
      · rintro ⟨h, -⟩
        cases h
  | some logs =>
      -- of the lines with a mention the first is taken, so those before it have none
      have hfirst : ∀ programIdRaw codeRaw, logs.findSome? exec = some (programIdRaw, codeRaw) ↔
          ∃ earlier line later, logs = earlier ++ line :: later ∧
            (∀ l ∈ earlier, Silent l) ∧ Says line programIdRaw codeRaw := by
        intro programIdRaw codeRaw
        rw [List.findSome?_eq_some_iff]
        simp only [exec_eq_some_iff, exec_eq_none_iff]
        constructor
        · rintro ⟨earlier, line, later, hlogs, hsays, hsilent⟩
          exact ⟨earlier, line, later, hlogs, hsilent, hsays⟩
        · rintro ⟨earlier, line, later, hlogs, hsilent, hsays⟩
          exact ⟨earlier, line, later, hlogs, hsays, hsilent⟩
      rw [fromTxError]
      constructor
      · intro h
        split at h
        · cases h
        · rename_i programIdRaw codeRaw hexec
          split at h
          · cases h
          · rename_i hid
            rw [not_not] at hid
            subst hid
            obtain ⟨hcode, hkind, hlogs⟩ := (fromCode_eq_some_iff ..).1 h
            obtain ⟨earlier, line, later, hsplit, hsilent, hsays⟩ := (hfirst ..).1 hexec
            exact ⟨congrArg some hlogs.symm, hkind, earlier, line, later, codeRaw,
              hlogs.trans hsplit, hsilent, hsays, hcode⟩
      · rintro ⟨herr, hkind, earlier, line, later, codeRaw, hsplit, hsilent, hsays, hcode⟩
        cases herr
        rw [(hfirst ..).2 ⟨earlier, line, later, hsplit, hsilent, hsays⟩]
        show (if programId ≠ programId then none else fromCode (parseInt16 codeRaw) e.logs) = some e
        rw [if_neg (fun h => h rfl)]
        exact (fromCode_eq_some_iff ..).2 ⟨hcode, hkind, rfl⟩

/-- The line of the first program that failed decides. -/
theorem fromTxError_first {earlier : List (List Char)} (hearlier : ∀ l ∈ earlier, Silent l)
    {line program codeRaw : List Char} (hline : Says line program codeRaw)
    (later : List (List Char)) (programId : List Char) :
    fromTxError (some (earlier ++ line :: later)) programId =
      if program ≠ programId then none
      else fromCode (parseInt16 codeRaw) (earlier ++ line :: later) := by
  have hexec : (earlier ++ line :: later).findSome? exec = some (program, codeRaw) := by
    rw [List.findSome?_eq_some_iff]
    exact ⟨earlier, line, later, rfl, (exec_eq_some_iff ..).2 hline,
      fun l hl => (exec_eq_none_iff l).2 (hearlier l hl)⟩
  rw [fromTxError, hexec]

/-- The generated classes have the numbers, names and messages of the program's own errors. -/
theorem customFromCode_code (e : LRTPoolError) :
    customFromCode e.code = some ⟨e.code, e.name, e.msg⟩ := by
  cases e <;> rfl

/-- Two errors are younger than the list of the framework's errors that the client was generated
with. -/
theorem anchorFromCode_code (e : AnchorError) :
    (anchorFromCode e.code).map (·.name) =
      if e = .constraintMintTokenProgram ∨ e = .constraintAssociatedTokenTokenProgram then none
      else some e.name := by
  cases e <;> rfl

theorem le_code (e : LRTPoolError) : 6000 ≤ e.code := by
  cases e <;> decide

theorem code_lt (e : AnchorError) : e.code < 6000 := by
  cases e <;> decide

/-- The errors of the program that the client has no class for. -/
def Unlisted (e : Wire.EntryError) : Prop :=
  e = .eventInstructionStub ∨ e = .program (.anchor .constraintMintTokenProgram) ∨
    e = .program (.anchor .constraintAssociatedTokenTokenProgram)

/-- The class says what the error was: its name, and for the program's own errors the message. -/
def ErrorClass.Describes (k : ErrorClass) (e : Wire.EntryError) : Prop :=
  some k.name = e.name ∧ ∀ e', e = .program (.lrt e') → k.msg = e'.msg

/-- Every number of the program has a class that describes the error, but for the unlisted ones. -/
theorem fromCode_code {e : Wire.EntryError} {n : Nat} (h : e.code = some n)
    (logs : List (List Char)) :
    (Unlisted e ∧ fromCode (some n) logs = none) ∨
      (¬ Unlisted e ∧ ∃ k, k.Describes e ∧ fromCode (some n) logs = some ⟨k, logs⟩) := by
  -- the entry point fails with numbers of the framework
  have hentry : ∀ k : ErrorClass, some k.name = e.name → (∀ e', e ≠ .program e') →
      e ≠ .eventInstructionStub → anchorFromCode n = some k → n < 6000 →
      ¬ Unlisted e ∧ ∃ k, k.Describes e ∧ fromCode (some n) logs = some ⟨k, logs⟩ := by
    intro k hname hne hevent hk hn
    refine ⟨?_, k, ⟨hname, fun _ he => absurd he (hne _)⟩, ?_⟩
    · rintro (he | he | he)
      · exact hevent he
      · exact hne _ he
      · exact hne _ he
    · rw [fromCode, if_neg (Nat.not_le.2 hn), hk]
      rfl
  cases e with
  | instructionMissing =>
      cases h
      exact Or.inr (hentry _ rfl nofun nofun rfl (by decide))
  | idlInstruction => cases h
  | eventInstructionStub =>
      cases h
      exact Or.inl ⟨Or.inl rfl, rfl⟩
  | instructionFallbackNotFound =>
      cases h
      exact Or.inr (hentry _ rfl nofun nofun rfl (by decide))
  | instructionDidNotDeserialize =>
      cases h
      exact Or.inr (hentry _ rfl nofun nofun rfl (by decide))
  | program e =>
      cases e with
      | lrt e =>
          cases h
          refine Or.inr ⟨?_, ⟨e.code, e.name, e.msg⟩, ⟨rfl, ?_⟩, ?_⟩
          · rintro (he | he | he)
            · cases he
            · cases he
            · cases he
          · intro e' he
            cases he
            rfl
          · rw [fromCode, if_pos (le_code e), customFromCode_code]
            rfl
      | anchor e =>
          cases h
          have hname := anchorFromCode_code e
          rw [fromCode, if_neg (Nat.not_le.2 (code_lt e))]
          by_cases hlate :
              e = .constraintMintTokenProgram ∨ e = .constraintAssociatedTokenTokenProgram
          · rw [if_pos hlate] at hname
            rw [Option.map_eq_none_iff.1 hname]
            refine Or.inl ⟨Or.inr ?_, rfl⟩
            exact hlate.imp (fun he => by rw [he]) fun he => by rw [he]
          · rw [if_neg hlate] at hname
            obtain ⟨k, hk, hkname⟩ := Option.map_eq_some_iff.1 hname
            rw [hk]
            refine Or.inr ⟨?_, k, ⟨congrArg some hkname, fun _ he => by cases he⟩, rfl⟩
            rintro (he | he | he)
            · cases he
            · cases he
              exact hlate (Or.inl rfl)
            · cases he
              exact hlate (Or.inr rfl)
      -- failures of the runtime and of called programs have no number of this program
      | cpi e => cases h
      | invalidAccountData => cases h
      | privilegeEscalation => cases h
      | callDepth => cases h
      | calleeFailed => cases h
      | accountAlreadyInUse => cases h
      | invalidSeeds => cases h

/-- Where the program's failure is the first in the log, the client reports it under its name,
except for the unlisted errors; where another program failed first, it reports nothing. -/
theorem fromTxError_failureLine {e : Wire.EntryError} {n : Nat} (he : e.code = some n)
    {programId : List Char} (hid : IsWord programId) {earlier : List (List Char)}
    (hearlier : ∀ l ∈ earlier, Silent l) (later : List (List Char)) :
    let report := fun program code =>
      fromTxError (some (earlier ++ failureLine program code :: later)) programId
    (Unlisted e → report programId n = none) ∧
      (¬ Unlisted e → ∃ k, k.Describes e ∧
        report programId n = some ⟨k, earlier ++ failureLine programId n :: later⟩) ∧
      ∀ other m, IsWord other → other ≠ programId → report other m = none := by
  intro report
  have hreport : ∀ program m, IsWord program → report program m =
      if program ≠ programId then none
      else fromCode (some m) (earlier ++ failureLine program m :: later) := by
    intro program m hprogram
    rw [← parseInt16_codeText m]
    exact fromTxError_first hearlier (says_failureLine hprogram m) later programId
  have hown : report programId n =
      fromCode (some n) (earlier ++ failureLine programId n :: later) := by
    rw [hreport programId n hid, if_neg (fun h => h rfl)]
  rw [hown]
  have hcode := fromCode_code he (earlier ++ failureLine programId n :: later)
  refine ⟨?_, ?_, ?_⟩
  · intro hlate
    rcases hcode with ⟨-, hnone⟩ | ⟨hlisted, -⟩
    · exact hnone
    · exact absurd hlate hlisted
  · intro hlisted
    rcases hcode with ⟨hlate, -⟩ | ⟨-, hk⟩
    · exact absurd hlate hlisted
    · exact hk
  · intro other m hother hne
    rw [hreport other m hother, if_pos hne]

end ErrorReport

namespace Sample

open ErrorReport

/-- `PROGRAM_ID`. -/
def programId : List Char := "Lrt1aE9sgjyi6B9QEdcuzHC8GhU32N3PM9RSKLBeD7b".toList

/-- The beginning of the log of a deposit. -/
def depositLog : List (List Char) :=
  ["Program Lrt1aE9sgjyi6B9QEdcuzHC8GhU32N3PM9RSKLBeD7b invoke [1]".toList,
    logLine "Instruction: Deposit".toList]

theorem isWord_programId : IsWord programId := by
  have hall : programId.all isWord = true := by decide
  exact ⟨by decide, List.all_eq_true.1 hall⟩

theorem depositLog_silent : ∀ l ∈ depositLog, Silent l := by
  have hexec : ∀ l ∈ depositLog, exec l = none := by decide
  exact fun l hl => (exec_eq_none_iff l).1 (hexec l hl)

/-- A deposit above the limit is reported as one. -/
theorem limit_reported : ∃ k : ErrorClass, k.msg = "Mint output exceeds limit" ∧
    fromTxError (some (depositLog ++ [failureLine programId 6006])) programId =
      some ⟨k, depositLog ++ [failureLine programId 6006]⟩ := by
  have hcode : (Wire.EntryError.program (.lrt .outputMintLimitExceeded)).code = some 6006 := rfl
  obtain ⟨k, hk, hreport⟩ :=
    (fromTxError_failureLine hcode isWord_programId depositLog_silent []).2.1 (by simp [Unlisted])
  exact ⟨k, hk.2 _ rfl, hreport⟩

end Sample

namespace ErrorReport

/-! ## Logged texts -/

theorem search_errorRe_of_no_start {before : List Char} (h : 'P' ∉ before) (s : List Char) :
    search errorRe (before ++ s) = search errorRe s := by
  induction before with
  | nil => rfl
  | cons c before ih =>
      -- a match begins with the first letter of the pattern
      have hhere : matchAt errorRe (c :: (before ++ s)) = none := by
        rw [errorRe, matchAt, if_neg]
        intro hbegins
        have hc : 'P' = c := (List.cons_prefix_cons.1 hbegins).1
        exact h (hc ▸ List.mem_cons_self)
      rw [List.cons_append, search, hhere]
      exact ih fun hmem => h (List.mem_cons_of_mem _ hmem)

/-- No match begins with the runtime's own words in front of a logged text. -/
theorem matchAt_logLine (text : List Char) : matchAt errorRe (logLine text) = none := by
  rw [matchAt_eq_none_iff]
  intro caps hread
  obtain ⟨id, code, after, hmention⟩ := mention_of_reads hread
  obtain ⟨rest, hline⟩ : ∃ rest, "Program ".toList ++ ("log: ".toList ++ text) =
      "Program ".toList ++ (id ++ ' ' :: rest) := ⟨_, hmention.line_eq⟩
  have hrest := List.append_cancel_left hline
  -- the address would be the word `log`, and a colon follows it
  have hid : "log".toList = id := by
    have htake := congrArg (List.takeWhile isWord) hrest
    rw [List.takeWhile_append_of_pos hmention.programId.2,
      List.takeWhile_cons_of_neg (by decide), List.append_nil] at htake
    exact htake
  have hcolon : "log".toList ++ (": ".toList ++ text) = "log".toList ++ ' ' :: rest := by
    rw [← hid] at hrest
    exact hrest
  cases List.append_cancel_left hcolon

/-- A logged text is searched like a line of its own. -/
theorem says_logLine_iff (text programIdRaw codeRaw : List Char) :
    Says (logLine text) programIdRaw codeRaw ↔ Says text programIdRaw codeRaw := by
  have hsearch : search errorRe (logLine text) = search errorRe text := by
    have hstart := matchAt_logLine text
    have hline : logLine text = 'P' :: ("rogram log: ".toList ++ text) := rfl
    rw [hline] at hstart ⊢
    rw [search, hstart]
    exact search_errorRe_of_no_start (by decide) text
  rw [← search_eq_some_iff_says, hsearch, search_eq_some_iff_says]

/-- The client takes what a program logs for the runtime's word: whoever logs the line of a failure
before any program has failed decides which error the client reports, whatever happens later. -/
theorem fromTxError_logLine {k : ErrorClass} (hk : k ∈ customErrors ++ anchorErrors)
    {programId : List Char} (hid : IsWord programId) {earlier : List (List Char)}
    (hearlier : ∀ l ∈ earlier, Silent l) (later : List (List Char)) :
    let logs := earlier ++ logLine (failureLine programId k.code) :: later
    fromTxError (some logs) programId = some ⟨k, logs⟩ := by
  intro logs
  have hsays : Says (logLine (failureLine programId k.code)) programId (codeText k.code) :=
    (says_logLine_iff ..).2 (says_failureLine hid k.code)
  show fromTxError (some (earlier ++ logLine (failureLine programId k.code) :: later)) programId =
    some ⟨k, logs⟩
  rw [fromTxError_first hearlier hsays, if_neg (fun h => h rfl), parseInt16_codeText]
  exact (fromCode_eq_some_iff ..).2 ⟨rfl, hk, rfl⟩

end ErrorReport

namespace Sample

open ErrorReport

/-- The same failure behind a logged text is reported as another error. -/
theorem other_error_reported :
    fromTxError (some (depositLog ++ logLine (failureLine programId 6007) ::
        [failureLine programId 6006])) programId =
      some ⟨⟨6007, "InvalidDelegateAuthority", "Invalid delegate authority"⟩,
        depositLog ++ logLine (failureLine programId 6007) :: [failureLine programId 6006]⟩ := by
  have hk : (⟨6007, "InvalidDelegateAuthority", "Invalid delegate authority"⟩ : ErrorClass) ∈
      customErrors ++ anchorErrors := by decide
  exact fromTxError_logLine hk isWord_programId depositLog_silent [failureLine programId 6006]

end Sample

end AdraLrt
