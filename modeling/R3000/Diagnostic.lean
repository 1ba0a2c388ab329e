import R3000.Bus
import R3000.Config
import R3000.Exception
import R3000.Registers
import R3000.Tlb

/-!
# Diagnostics

While it runs, a processor takes notes in the order in which things happen. An
event is a fact about the machine that a host may act on. A message is for
readers of a log only. A sink says what becomes of the events: nothing, a
record, or further lines in the log.
-/
namespace R3000

/-- Why the lookaside buffer did not answer. -/
inductive TlbFaultKind where
  /-- No entry covers an address of user space. -/
  | refill
  | invalid
  | modified
  deriving DecidableEq, Repr

def TlbFaultKind.name : TlbFaultKind → String
  | refill => "Refill"
  | invalid => "Invalid"
  | modified => "Modified"

inductive Event where
  | exception (exception : Exception) (epc vector : Word)
  | privilegeChange (user : Bool)
  | addressError (address : Word) (intent : Intent)
  | tlbWrite (slot : Nat) (entry : TlbEntry) (random : Bool)
  | tlbProbe (hi : Word) (slot : Option Nat)
  | tlbFault (address space : Word) (kind : TlbFaultKind)
  | fpuUnimplemented (word : Word)
  | interrupt (line : Nat) (asserted : Bool)
  deriving DecidableEq, Repr

inductive Message where
  | reset (model : Model) (cpurev : Word)
  | exceptionEntered (exception : Exception) (epc cause vector : Word)
  | registersAtException (registers : Registers)
  | addressError (address : Word) (intent : Intent) (pc : Word)
  | tlbFault (kind : TlbFaultKind) (address space : Word) (intent : Intent)
  | fetchFailed (address : Word) (reason : BusError)
  | loadFailed (address pc : Word) (reason : BusError)
  | storeFailed (address pc : Word) (reason : BusError)
  | reserved (word pc : Word)
  | tlbWritten (slot : Nat) (entry : TlbEntry)
  | fpuUnimplemented (word pc : Word)
  | controlWriteIgnored (reg : Nat) (value : Word)
  | controlReadIgnored (reg : Nat)
  | inputIgnored (line : Nat)
  | wordDropped (word : Word) (reason : BusError)
  deriving DecidableEq

inductive Note where
  | event (event : Event)
  | message (message : Message)
  deriving DecidableEq

/-! ### Log lines -/

inductive Level where
  | error
  | warn
  | debug
  | trace
  deriving DecidableEq, Repr

def Level.name : Level → String
  | error => "ERROR"
  | warn => "WARN"
  | debug => "DEBUG"
  | trace => "TRACE"

structure LogLine where
  level : Level
  text : String
  deriving DecidableEq, Repr

def LogLine.render (line : LogLine) : String := line.level.name ++ " " ++ line.text

open Numeral in
def Message.line : Message → LogLine
  | reset model cpurev =>
    ⟨.debug, model.name ++ " reset, prid 0x" ++ hexUpper 4 cpurev.toNat⟩
  | exceptionEntered exception epc cause vector =>
    ⟨.trace, "exception " ++ exception.name ++ " epc " ++ address epc
      ++ " cause " ++ address cause ++ " vector " ++ address vector⟩
  | registersAtException registers =>
    ⟨.trace, "registers at exception:\n" ++ registers.dump⟩
  | addressError target intent pc =>
    ⟨.debug, "address error " ++ address target ++ " (" ++ intent.name ++ ") at " ++ address pc⟩
  | tlbFault kind target space intent =>
    ⟨.trace, "tlb " ++ kind.name ++ " " ++ address target ++ " asid " ++ toString space.toNat
      ++ " (" ++ intent.name ++ ")"⟩
  | fetchFailed target reason =>
    ⟨.debug, "fetch " ++ address target ++ ": " ++ reason.message⟩
  | loadFailed target pc reason =>
    ⟨.debug, "load " ++ address target ++ " at " ++ address pc ++ ": " ++ reason.message⟩
  | storeFailed target pc reason =>
    ⟨.debug, "store " ++ address target ++ " at " ++ address pc ++ ": " ++ reason.message⟩
  | reserved word pc =>
    ⟨.debug, "reserved instruction " ++ address word ++ " (PC: " ++ address pc
      ++ ") (opcode: 0x" ++ hexUpper 1 (word >>> 26).toNat
      ++ " funct: 0x" ++ hexUpper 1 (word &&& 0x3f).toNat ++ ")"⟩
  | tlbWritten slot entry =>
    ⟨.trace, "tlb write " ++ toString slot ++ " hi " ++ address entry.hi
      ++ " lo " ++ address entry.lo ++ " pfn " ++ address entry.frame⟩
  | fpuUnimplemented word pc =>
    ⟨.debug, "fpu unimplemented operation " ++ address word ++ " at " ++ address pc⟩
  | controlWriteIgnored reg value =>
    ⟨.error, "ctc1 to unimplemented control register " ++ toString reg
      ++ " (" ++ address value ++ ")"⟩
  | controlReadIgnored reg =>
    ⟨.error, "cfc1 from unimplemented control register " ++ toString reg⟩
  | inputIgnored line =>
    ⟨.warn, "ignoring interrupt input " ++ toString line⟩
  | wordDropped word reason =>
    ⟨.warn, "dropping word " ++ address word ++ ": " ++ reason.message⟩

/-! ### The text of an event -/

/-- A record with named fields, as log lines show it. -/
def recordText (name : String) (fields : List (String × String)) : String :=
  let parts := fields.map fun (label, value) => label ++ ": " ++ value
  name ++ " \x7b " ++ String.intercalate ", " parts ++ " \x7d"

def optionText : Option Nat → String
  | some value => "Some(" ++ toString value ++ ")"
  | none => "None"

def Event.text : Event → String
  | exception raised epc vector =>
    recordText "Exception" [("exception", raised.name), ("epc", toString epc.toNat),
      ("vector", toString vector.toNat)]
  | privilegeChange user => recordText "PrivilegeChange" [("user", toString user)]
  | addressError address intent =>
    recordText "AddressError" [("address", toString address.toNat), ("intention", intent.name)]
  | tlbWrite slot entry random =>
    recordText "TlbWrite" [("index", toString slot), ("hi", toString entry.hi.toNat),
      ("lo", toString entry.lo.toNat), ("random", toString random)]
  | tlbProbe hi slot =>
    recordText "TlbProbe" [("hi", toString hi.toNat), ("index", optionText slot)]
  | tlbFault address space kind =>
    recordText "TlbFault" [("address", toString address.toNat), ("asid", toString space.toNat),
      ("kind", kind.name)]
  | fpuUnimplemented word => recordText "FpuUnimplemented" [("op", toString word.toNat)]
  | interrupt line asserted =>
    recordText "Interrupt" [("line", toString line), ("asserted", toString asserted)]

/-- The four attribute letters of an entry, with a dash for each that is not set. -/
def TlbEntry.attributeText (entry : TlbEntry) : String :=
  let letter (mask : Word) (name : Char) := if hasAny entry.lo mask then name else '-'
  String.ofList [letter 0x800 'N', letter dirtyBit 'D', letter validBit 'V', letter globalBit 'G']

open Numeral in
/-- The log line of an event. Address errors and writes to the lookaside buffer have a
wording of their own. -/
def Event.line : Event → LogLine
  | addressError target intent =>
    ⟨.warn, "address error " ++ address target ++ " (" ++ intent.name ++ ")"⟩
  | tlbWrite slot entry random =>
    ⟨.debug, "asid " ++ decimalRight 2 (keySpace entry.hi).toNat ++ " tlb write "
      ++ (if random then "random" else "index") ++ " " ++ decimalRight 2 slot
      ++ " vpn " ++ address (entry.hi &&& pageMask) ++ " pfn " ++ address entry.frame
      ++ " " ++ entry.attributeText⟩
  | event => ⟨.debug, event.text⟩

/-! ### Sinks -/

inductive Sink where
  /-- Events are dropped. -/
  | discard
  /-- Events are kept for the host. -/
  | record
  /-- Events become log lines. -/
  | log
  deriving DecidableEq, Repr

/-- The log lines that notes leave when a sink receives their events. -/
def Sink.lines (sink : Sink) (notes : List Note) : List LogLine :=
  notes.filterMap fun
    | .message message => some message.line
    | .event event => if sink = .log then some event.line else none

/-- The events that a sink keeps. -/
def Sink.recorded (sink : Sink) (notes : List Note) : List Event :=
  notes.filterMap fun
    | .event event => if sink = .record then some event else none
    | .message _ => none

/-- All events among the notes. -/
def events (notes : List Note) : List Event := Sink.record.recorded notes

end R3000
