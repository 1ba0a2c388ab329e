import R3000.BusTrace
import R3000.Host
import R3000.Ram
import R3000.Run
import R3000.Proofs.SearchOrder
import R3000.Proofs.Demands
import R3000.Proofs.LineUpdate
import R3000.Proofs.Completion
import R3000.Proofs.Trapping
import R3000.Proofs.Entering
import R3000.Proofs.ModeStack
import R3000.Proofs.Reachability
import R3000.Proofs.RunInvariants
import R3000.Proofs.PreciseExceptions
import R3000.Proofs.Restarting
import R3000.Proofs.Accesses
import R3000.Proofs.UserMode
import R3000.Proofs.Refill
import R3000.Proofs.SearchHistory
import R3000.Proofs.DelaySlots
import R3000.Proofs.FloatInterrupt
import R3000.Proofs.PatternValues
import R3000.Proofs.CorrectRounding
import R3000.Proofs.SoftwareArithmetic
import R3000.Proofs.UnitOperations
import R3000.Proofs.Disguises
import R3000.Proofs.OrderIndependence
import R3000.Proofs.Inspection
import R3000.Proofs.Returning
import R3000.Proofs.ByteLanes
import R3000.Proofs.MemoryBytes
import R3000.Proofs.Translation
import R3000.Proofs.Carrying
import R3000.Proofs.UnalignedLoads
import R3000.Proofs.UnalignedStores
import R3000.Proofs.Requests
import R3000.Proofs.ByteMemory
import R3000.Proofs.FaultRanges
import R3000.Proofs.MirroredCache
import R3000.Proofs.WordMemory
import R3000.Proofs.WordPrograms
import R3000.Proofs.Histories
import R3000.Proofs.Regime
import R3000.Proofs.PrivilegeReports
import R3000.Proofs.InterruptInputs
import R3000.Proofs.HandlerMode
import R3000.Proofs.BusDiscipline
import R3000.Proofs.RegisterNumbers
import R3000.Proofs.Courses
import R3000.Proofs.SlotStorage
import R3000.Proofs.SlotContents
import R3000.Proofs.RandomSlots
import R3000.Proofs.DataRouting
import R3000.Proofs.Installed
import R3000.Proofs.WarmReset
import R3000.Proofs.FixedMapping
import R3000.Proofs.Budgets
import R3000.Proofs.Checks
import R3000.Proofs.CheckedCore
import R3000.Proofs.CheckedFloat
import R3000.Proofs.CheckedIssue
import R3000.Proofs.CheckedIssuing
import R3000.Proofs.CheckedSearch
import R3000.Proofs.CheckedCaches
import R3000.Proofs.CheckedMachine
import R3000.Proofs.CheckedOperations
import R3000.Proofs.CheckedRuns
import R3000.Proofs.Lookups
import R3000.Proofs.Promotions
import R3000.Proofs.FaultRecords
import R3000.Proofs.SignOperations
import R3000.Proofs.WriteBack
import R3000.Proofs.StickyControl
import R3000.Proofs.RoundingLatch
import R3000.Proofs.PatternOrder
import R3000.Proofs.WordConversion
import R3000.Proofs.ExactOperations
import R3000.Proofs.Widening
import R3000.Proofs.FloatRegisters
import R3000.Proofs.BranchRestart
import R3000.Proofs.RegisterEffects
import R3000.Proofs.InstructionSet
import R3000.Proofs.Multiplier
import R3000.Proofs.DotProducts
import R3000.Proofs.Overflow
import R3000.Proofs.EventLog
import R3000.Proofs.Lockstep
import R3000.Proofs.ElapsedTime
import R3000.Proofs.Validation
