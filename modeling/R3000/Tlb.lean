import R3000.Word

/-!
# The lookaside buffer

Sixty-four slots each hold an entry that maps one page of 4096 bytes. The upper
word of an entry names the page and the address space it belongs to; a global
entry serves every address space. The lower word gives the physical frame and
says whether the entry is valid and its page may be written.

Several entries may cover one key. Each kind of access has a search order of its
own, and the first covering entry in that order answers. An access that succeeds
moves its entry one place towards the front of the order used.
-/
namespace R3000

/-- What an access wants. -/
inductive Intent where
  | read
  | write
  | fetch
  deriving DecidableEq, Repr

def Intent.all : List Intent := [.read, .write, .fetch]

def Intent.name : Intent → String
  | read => "Read"
  | write => "Write"
  | fetch => "Fetch"

/-! ### Entries -/

/-- The page number, in the upper word of an entry and in a key. -/
def pageMask : Word := 0xfffff000

/-- The address space number, in the upper word of an entry and in a key. -/
def spaceMask : Word := 0x00000fc0

structure TlbEntry where
  hi : Word
  lo : Word
  deriving DecidableEq, Repr

namespace TlbEntry

/-- The physical frame, in the lower word. -/
def frameMask : Word := 0xfffff000

def dirtyBit : Word := 0x00000400
def validBit : Word := 0x00000200
def globalBit : Word := 0x00000100

/-- What every slot holds before it is first written. -/
def empty : TlbEntry := ⟨0, 0⟩

def valid (entry : TlbEntry) : Bool := hasAny entry.lo validBit
def dirty (entry : TlbEntry) : Bool := hasAny entry.lo dirtyBit
def isGlobal (entry : TlbEntry) : Bool := hasAny entry.lo globalBit
def frame (entry : TlbEntry) : Word := entry.lo &&& frameMask

/-- The part of a key that has to agree with the entry. -/
def keyMask (entry : TlbEntry) : Word :=
  if entry.isGlobal then pageMask else pageMask ||| spaceMask

def covers (entry : TlbEntry) (key : Word) : Bool :=
  entry.hi &&& entry.keyMask == key &&& entry.keyMask

end TlbEntry

/-- A key is the page of an address together with an address space. -/
def searchKey (address entryHi : Word) : Word := (address &&& pageMask) ||| (entryHi &&& spaceMask)

def keySpace (key : Word) : Word := (key &&& spaceMask) >>> 6

/-! ### Search orders -/

/-- The slots, first to be searched first. -/
abbrev SearchOrder := List (Fin 64)

def SearchOrder.initial : SearchOrder := List.finRange 64

/-- Move `slot` one place towards the front. -/
def SearchOrder.promote (slot : Fin 64) : SearchOrder → SearchOrder
  | first :: second :: rest =>
    if first = slot then first :: second :: rest
    else if second = slot then second :: first :: rest
    else first :: promote slot (second :: rest)
  | order => order

/-- Promoting neither loses nor repeats a slot. -/
theorem SearchOrder.promote_perm (slot : Fin 64) (order : SearchOrder) :
    (order.promote slot).Perm order := by
  fun_induction SearchOrder.promote slot order with
  | case1 second rest => exact .refl _
  | case2 first rest apart => exact .swap _ _ _
  | case3 first second rest apart later hypothesis => exact hypothesis.cons _
  | case4 order short => exact .refl _

/-! ### The buffer -/

/-- The answer to a key: the physical frame, or why there is none. -/
inductive Lookup where
  | hit (frame : Word)
  | miss
  | invalid
  | modified
  deriving DecidableEq, Repr

/-- What a covering entry answers to an access. -/
def TlbEntry.answer (entry : TlbEntry) (intent : Intent) : Lookup :=
  if !entry.valid then .invalid
  else if intent = .write && !entry.dirty then .modified
  else .hit entry.frame

structure Tlb where
  entries : Vector TlbEntry 64
  readOrder : SearchOrder
  writeOrder : SearchOrder
  fetchOrder : SearchOrder
  deriving DecidableEq

namespace Tlb

def initial : Tlb where
  entries := Vector.replicate 64 .empty
  readOrder := .initial
  writeOrder := .initial
  fetchOrder := .initial

def order (tlb : Tlb) : Intent → SearchOrder
  | .read => tlb.readOrder
  | .write => tlb.writeOrder
  | .fetch => tlb.fetchOrder

def setOrder (tlb : Tlb) (intent : Intent) (order : SearchOrder) : Tlb :=
  match intent with
  | .read => { tlb with readOrder := order }
  | .write => { tlb with writeOrder := order }
  | .fetch => { tlb with fetchOrder := order }

def resetOrders (tlb : Tlb) : Tlb :=
  { tlb with readOrder := .initial, writeOrder := .initial, fetchOrder := .initial }

def entry (tlb : Tlb) (slot : Fin 64) : TlbEntry := tlb.entries[slot]

def setEntry (tlb : Tlb) (slot : Fin 64) (entry : TlbEntry) : Tlb :=
  { tlb with entries := tlb.entries.set slot entry }

/-- The lowest slot whose entry covers a key. -/
def probe (tlb : Tlb) (key : Word) : Option (Fin 64) :=
  (List.finRange 64).find? fun slot => (tlb.entry slot).covers key

/-- The slot that answers a key: the first covering one in the order of the access. -/
def firstCovering (tlb : Tlb) (key : Word) (intent : Intent) : Option (Fin 64) :=
  (tlb.order intent).find? fun slot => (tlb.entry slot).covers key

def lookup (tlb : Tlb) (key : Word) (intent : Intent) : Lookup :=
  match tlb.firstCovering key intent with
  | none => .miss
  | some slot => (tlb.entry slot).answer intent

/-- Promote the entry that answers an access, if the access succeeds. -/
def promote (tlb : Tlb) (key : Word) (intent : Intent) : Tlb :=
  match tlb.firstCovering key intent with
  | none => tlb
  | some slot =>
    match (tlb.entry slot).answer intent with
    | .hit _ => tlb.setOrder intent ((tlb.order intent).promote slot)
    | .miss | .invalid | .modified => tlb

/-! ### What changes what -/

theorem entry_setEntry (tlb : Tlb) (slot other : Fin 64) (entry : TlbEntry) :
    (tlb.setEntry slot entry).entry other = if other = slot then entry else tlb.entry other := by
  unfold setEntry Tlb.entry
  by_cases same : other = slot
  · subst same
    simp
  · have apart : slot.val ≠ other.val := fun equal => same (Fin.ext equal.symm)
    simp [same, apart]

@[simp] theorem order_setEntry (tlb : Tlb) (slot : Fin 64) (entry : TlbEntry) :
    (tlb.setEntry slot entry).order = tlb.order := by
  funext intent
  cases intent <;> rfl

/-- The three search orders are independent. -/
theorem order_setOrder (tlb : Tlb) (intent other : Intent) (order : SearchOrder) :
    (tlb.setOrder intent order).order other =
      if other = intent then order else tlb.order other := by
  cases intent <;> cases other <;> rfl

@[simp] theorem entries_setOrder (tlb : Tlb) (intent : Intent) (order : SearchOrder) :
    (tlb.setOrder intent order).entries = tlb.entries := by
  cases intent <;> rfl

@[simp] theorem entries_promote (tlb : Tlb) (key : Word) (intent : Intent) :
    (tlb.promote key intent).entries = tlb.entries := by
  unfold promote
  split
  · rfl
  · split
    · exact entries_setOrder ..
    · rfl
    · rfl
    · rfl

end Tlb

end R3000
