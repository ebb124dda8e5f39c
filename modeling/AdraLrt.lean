import AdraLrt.TokenLedger.Checked
import AdraLrt.TokenLedger.Basic
import AdraLrt.TokenLedger.Instruction
import AdraLrt.TokenLedger.Effect
import AdraLrt.TokenLedger.Privilege
import AdraLrt.TokenLedger.Custody
import AdraLrt.TokenLedger.Conservation
import AdraLrt.State
import AdraLrt.Runtime
import AdraLrt.Anchor
import AdraLrt.Contexts.Deposit
import AdraLrt.Contexts.Withdraw
import AdraLrt.Contexts.WithdrawStake
import AdraLrt.Contexts.Delegate
import AdraLrt.Contexts.Initialize
import AdraLrt.Contexts.Authority
import AdraLrt.Program
import AdraLrt.Invoke
import AdraLrt.Execute
import AdraLrt.Failure
import AdraLrt.TokenLedger.Spend
import AdraLrt.TokenLedger.Funds
import AdraLrt.TokenLedger.Origin
import AdraLrt.TokenLedger.Success
import AdraLrt.TokenLedger.Rollback
import AdraLrt.TokenLedger.Frame
import AdraLrt.TokenLedger.Finite
import AdraLrt.Run
import AdraLrt.AuthorityHistory
import AdraLrt.Isolation
import AdraLrt.HostileAvs
import AdraLrt.TokenLedger.Drain
import AdraLrt.Exposure
import AdraLrt.Client
import AdraLrt.Exchange
import AdraLrt.Invariant
import AdraLrt.Registry
import AdraLrt.Sample
import AdraLrt.Backing
import AdraLrt.Enabled
import AdraLrt.MintLimit
import AdraLrt.Redemption
import AdraLrt.Exit
import AdraLrt.ForcedExit
import AdraLrt.Refinement
import AdraLrt.Declared
import AdraLrt.Conversion
import AdraLrt.Credit
import AdraLrt.Wallet
import AdraLrt.Journal
import AdraLrt.Bytes.Codec
import AdraLrt.Bytes.Sha256
import AdraLrt.Wire
import AdraLrt.AccountData
import AdraLrt.Transaction
import AdraLrt.Migrations
import AdraLrt.WindDown
import AdraLrt.TokenLedger.Refusal
import AdraLrt.Outcome
import AdraLrt.Unwind
import AdraLrt.ErrorReport
import AdraLrt.Numbers.Double
import AdraLrt.Scripts
