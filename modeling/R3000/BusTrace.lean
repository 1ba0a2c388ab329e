import R3000.Bus

/-!
# Watched memories

A memory that keeps a list of the calls made on it, each with its answer. The
watching changes no answer.
-/
namespace R3000

inductive BusCall where
  | read (width : Width) (address : Word) (answer : Except BusError (BitVec width.bits))
  | write (width : Width) (address : Word) (value mask : BitVec width.bits)
      (answer : Except BusError Unit)

/-- A memory with the calls made on it so far, the latest first. -/
structure Watched (β : Type) where
  memory : β
  calls : List BusCall

namespace Watched

variable {β : Type}

def start (memory : β) : Watched β := ⟨memory, []⟩

/-- The calls in the order in which they were made. -/
def history (watched : Watched β) : List BusCall := watched.calls.reverse

instance [Bus β] : Bus (Watched β) where
  read watched width address :=
    let (answer, memory) := Bus.read watched.memory width address
    (answer, ⟨memory, .read width address answer :: watched.calls⟩)
  write watched width address value mask :=
    let (answer, memory) := Bus.write watched.memory width address value mask
    (answer, ⟨memory, .write width address value mask answer :: watched.calls⟩)

end Watched

end R3000
