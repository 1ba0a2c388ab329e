import R3000.Floating.Software

/-!
# Processor descriptions

A description names a model of the family and the properties that differ
between parts: the identification word, the byte order, the two cache sizes,
the way mapped addresses are translated, and the floating point unit with its
arithmetic. A fresh description takes all of them from the model, except that the
arithmetic is that of this library; any of them can then be changed.
A description is sound when both caches are absent or a power of two in size
and the floating point unit drives one of the six interrupt inputs.
-/
namespace R3000

/-- Which end of a word is stored at its lowest address. -/
inductive ByteOrder where
  | big
  | little
  deriving DecidableEq, Repr

/-- How addresses outside the two unmapped windows become physical. -/
inductive Mapping where
  /-- User space is moved up by one gigabyte and the rest is left in place. -/
  | fixed
  /-- A software-managed lookaside buffer of 64 entries. -/
  | tlb
  /-- The lookaside buffer can be read, written and probed, but addresses pass unchanged. -/
  | bypass
  deriving DecidableEq, Repr

inductive Model where
  | r2000
  | r2000A
  | r3000
  | r3000A
  | r3041
  | r3051
  | r3052
  | r3052E
  | r3071
  | r3081
  | iop
  | tx3927
  deriving DecidableEq, Repr

/-- A floating point unit: its identification, and the interrupt input it drives. -/
structure FpuAttachment where
  revision : Word
  irq : Nat
  deriving DecidableEq, Repr

namespace FpuAttachment

/-- Unless told otherwise a unit drives interrupt input 3. -/
def ofRevision (revision : Word) : FpuAttachment := ⟨revision, 3⟩

/-- A unit of revision zero is no unit. -/
def isPresent (unit : FpuAttachment) : Bool := unit.revision != 0

/-! Identifications of the known units. -/

def r2360 : Word := 0x0100
def r2010 : Word := 0x0200
def r2010A : Word := 0x0310
def r3010 : Word := 0x0320
def r3010A : Word := 0x0330
def r3010Av4 : Word := 0x0340
def r6010 : Word := 0x0400

end FpuAttachment

namespace Model

def all : List Model :=
  [r2000, r2000A, r3000, r3000A, r3041, r3051, r3052, r3052E, r3071, r3081, iop, tx3927]

def name : Model → String
  | r2000 => "R2000"
  | r2000A => "R2000A"
  | r3000 => "R3000"
  | r3000A => "R3000A"
  | r3041 => "R3041"
  | r3051 => "R3051"
  | r3052 => "R3052"
  | r3052E => "R3052E"
  | r3071 => "R3071"
  | r3081 => "R3081"
  | iop => "Iop"
  | tx3927 => "Tx3927"

/-- The identification word a part of this model carries. -/
def cpurev : Model → Word
  | r2000 => 0x0100
  | r2000A => 0x0210
  | r3000 => 0x0220
  | r3000A => 0x0230
  | r3041 => 0x0700
  | r3051 | r3052 | r3052E | r3071 | r3081 => 0x0200
  | iop => 0x001f
  | tx3927 => 0x3927

/-- The sizes of the instruction and the data cache, in bytes. -/
def cacheSizes : Model → Nat × Nat
  | r2000 | r2000A | r3000 | r3000A => (0, 0)
  | r3041 => (2048, 512)
  | r3051 => (4096, 2048)
  | r3052 | r3052E => (8192, 2048)
  | r3071 | r3081 => (16384, 4096)
  | iop => (4096, 1024)
  | tx3927 => (8192, 4096)

def mapping : Model → Mapping
  | r3041 | r3051 | r3052 | iop => .fixed
  | tx3927 => .bypass
  | r2000 | r2000A | r3000 | r3000A | r3052E | r3071 | r3081 => .tlb

def byteOrder : Model → ByteOrder
  | iop => .little
  | _ => .big

def fpu : Model → Option FpuAttachment
  | r3081 => some (.ofRevision 0x0300)
  | _ => none

/-- The R3041 adds registers for bus control, cache configuration, bus widths, counting and
comparing. -/
def hasBusRegisters (model : Model) : Bool := model == r3041

end Model

structure Config where
  model : Model
  cpurev : Word
  byteOrder : ByteOrder
  icacheSize : Nat
  dcacheSize : Nat
  mapping : Mapping
  fpu : Option FpuAttachment
  /-- What the floating point unit computes with. -/
  arithmetic : Floating.Arithmetic

inductive CacheKind where
  | instruction
  | data
  deriving DecidableEq, Repr

def CacheKind.name : CacheKind → String
  | instruction => "instruction"
  | data => "data"

inductive ConfigError where
  | cacheSize (cache : CacheKind) (size : Nat)
  | fpuInterrupt (line : Nat)
  deriving DecidableEq, Repr

def ConfigError.message : ConfigError → String
  | cacheSize cache size =>
    cache.name ++ " cache size " ++ toString size ++ " is not a power of two"
  | fpuInterrupt line =>
    "fpu interrupt line " ++ toString line ++ " out of range (expected 0..6)"

/-- A cache is absent, or its size is a power of two. -/
def cacheSizeValid (size : Nat) : Bool := size == 0 || size == 2 ^ size.log2

theorem cacheSizeValid_iff (size : Nat) :
    cacheSizeValid size = true ↔ size = 0 ∨ ∃ power : Nat, size = 2 ^ power := by
  simp only [cacheSizeValid, Bool.or_eq_true, beq_iff_eq]
  constructor
  · rintro (absent | equal)
    · exact .inl absent
    · exact .inr ⟨size.log2, equal⟩
  · rintro (absent | ⟨power, rfl⟩)
    · exact .inl absent
    · exact .inr (by rw [Nat.log2_two_pow])

namespace Config

def ofModel (model : Model) : Config where
  model
  cpurev := model.cpurev
  byteOrder := model.byteOrder
  icacheSize := model.cacheSizes.1
  dcacheSize := model.cacheSizes.2
  mapping := model.mapping
  fpu := model.fpu
  arithmetic := .software

def withByteOrder (config : Config) (order : ByteOrder) : Config :=
  { config with byteOrder := order }

def withCaches (config : Config) (icacheSize dcacheSize : Nat) : Config :=
  { config with icacheSize, dcacheSize }

/-- Attaching a unit of revision zero detaches the present one. -/
def withFpu (config : Config) (unit : FpuAttachment) : Config :=
  { config with fpu := if unit.isPresent then some unit else none }

/-- The description without a floating point unit that is not there. -/
def dropAbsentFpu (config : Config) : Config :=
  { config with fpu := config.fpu.filter FpuAttachment.isPresent }

/-- The first fault of a description: instruction cache, data cache, interrupt input. -/
def firstError (config : Config) : Option ConfigError :=
  if !cacheSizeValid config.icacheSize then some (.cacheSize .instruction config.icacheSize)
  else if !cacheSizeValid config.dcacheSize then some (.cacheSize .data config.dcacheSize)
  else match config.fpu with
    | some unit => if 6 ≤ unit.irq then some (.fpuInterrupt unit.irq) else none
    | none => none

def validate (config : Config) : Except ConfigError Config :=
  let config := config.dropAbsentFpu
  match config.firstError with
  | some error => .error error
  | none => .ok config

/-- The least and the greatest number of cycles one instruction is allowed to take. -/
def cycleBounds (_ : Config) : Nat × Nat := (1, 40)

end Config

end R3000
