import ZeroStack.AttemptJournal.Race
import ZeroStack.Blast.Mentions
import ZeroStack.DurableJournal.Race
import ZeroStack.EventLog.Usage
import ZeroStack.FsZero.Collection
import ZeroStack.FsZero.Confinement
import ZeroStack.FsZero.EditIntent
import ZeroStack.FsZero.EditSpec
import ZeroStack.FsZero.Edits
import ZeroStack.Gc.Safety
import ZeroStack.GraphStore.Acknowledged
import ZeroStack.Identity.EventLog
import ZeroStack.IdleGate.Release
import ZeroStack.Invalidation.Dirty
import ZeroStack.Invalidation.Equivalence
import ZeroStack.Kernel.CellSequence
import ZeroStack.Kernel.Settlement
import ZeroStack.LineRange.Agreement
import ZeroStack.Mmr.Codec
import ZeroStack.Mmr.Soundness
import ZeroStack.Paging.Walk
import ZeroStack.Reserve.Declare
import ZeroStack.Residency.Layers
import ZeroStack.SafeExpand.Revalidate
import ZeroStack.SessionWal.Durability
import ZeroStack.Speculation.Turn
import ZeroStack.Tokens.Packing
import ZeroStack.TwoPhase.Tamper
import ZeroStack.ZeroRef.Span
