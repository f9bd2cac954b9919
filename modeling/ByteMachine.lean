import ByteMachine.Inspect
import ByteMachine.Main
import ByteMachine.Proofs.Decoding
import ByteMachine.Proofs.Offered
import ByteMachine.Proofs.Step
import ByteMachine.Proofs.Termination
import ByteMachine.Proofs.Agreement
import ByteMachine.Proofs.Contents
import ByteMachine.Proofs.Listing
import ByteMachine.Proofs.StraightLine
import ByteMachine.Proofs.Loading
import ByteMachine.Proofs.Program
import ByteMachine.Proofs.Slices
import ByteMachine.Proofs.Placement
import ByteMachine.Proofs.Strictness
import ByteMachine.Proofs.History
import ByteMachine.Proofs.Attached
import ByteMachine.Proofs.Codec
import ByteMachine.Proofs.Stopped
import ByteMachine.Proofs.Observers
import ByteMachine.Proofs.Forgetting
import ByteMachine.Proofs.Clipping
import ByteMachine.Proofs.Accounting
import ByteMachine.Proofs.PortStream
import ByteMachine.Proofs.MoreMemory
import ByteMachine.Proofs.ExactAddresses
import ByteMachine.Proofs.HeaderCodec
import ByteMachine.Proofs.Console
import ByteMachine.Proofs.Responses
import ByteMachine.Proofs.ObjectText
import ByteMachine.Proofs.RecordText
import ByteMachine.Proofs.ConfigText
import ByteMachine.Proofs.Faults
import ByteMachine.Proofs.Bytewise
import ByteMachine.Proofs.Settling
import ByteMachine.Proofs.Arguments
import ByteMachine.Proofs.Flags
import ByteMachine.Proofs.HexText
import ByteMachine.Proofs.ListingText
import ByteMachine.Proofs.ListedBody
import ByteMachine.Proofs.Budgets
import ByteMachine.Proofs.Warnings
import ByteMachine.Proofs.Mnemonics
import ByteMachine.Proofs.Ranges
import ByteMachine.Proofs.PortReach
import ByteMachine.Proofs.Traces
import ByteMachine.Proofs.ByteWrites
import ByteMachine.Proofs.Fallbacks
