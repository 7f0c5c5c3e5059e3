import TokenLedger.Json.Forms
import TokenLedger.Main
import TokenLedger.Store
import TokenLedger.Proofs.Journal
import TokenLedger.Proofs.Effect
import TokenLedger.Proofs.Accepted
import TokenLedger.Proofs.Reachable
import TokenLedger.Proofs.Conservation
import TokenLedger.Proofs.Shares
import TokenLedger.Proofs.Solvency
import TokenLedger.Proofs.Coverage
import TokenLedger.Proofs.Interleaving
import TokenLedger.Proofs.Forest
import TokenLedger.Proofs.Lanes
import TokenLedger.Proofs.Turns
import TokenLedger.Proofs.Serial
import TokenLedger.Proofs.Pricing
import TokenLedger.Proofs.Dilution
import TokenLedger.Proofs.Backing
import TokenLedger.Proofs.Rules
import TokenLedger.Proofs.Failure
import TokenLedger.Proofs.Halt
import TokenLedger.Proofs.Resubmission
import TokenLedger.Proofs.Refusal
import TokenLedger.Proofs.Offer
import TokenLedger.Proofs.Stranding
import TokenLedger.Proofs.Commuting
import TokenLedger.Proofs.Lexing
import TokenLedger.Proofs.Reading
import TokenLedger.Proofs.RoundTrip
import TokenLedger.Proofs.Schema
import TokenLedger.Proofs.Lines
import TokenLedger.Proofs.Chunks
import TokenLedger.Proofs.Components
import TokenLedger.Proofs.LaneRun
import TokenLedger.Proofs.Account
import TokenLedger.Proofs.PendingPlaces
import TokenLedger.Proofs.Malformed
import TokenLedger.Proofs.Bookkeeping
import TokenLedger.Proofs.Permanence
import TokenLedger.Proofs.Tally
import TokenLedger.Proofs.Orientation
import TokenLedger.Proofs.Decimal
import TokenLedger.Proofs.Words
import TokenLedger.Proofs.DisjointSets
import TokenLedger.Proofs.Naming
import TokenLedger.Proofs.Recipients
