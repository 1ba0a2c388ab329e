import R3000.BusTrace

/-!
# Requests to a memory

A memory serves requests one after the other, each with a reply. A memory follows another when
it replies alike to every request that matters and is still related to the other afterwards;
then it replies alike to any sequence of such requests.
-/
namespace R3000

inductive Request where
  | read (width : Width) (address : Word)
  | write (width : Width) (address : Word) (value mask : BitVec width.bits)

namespace Request

def width : Request → Width
  | read width _ | write width _ _ _ => width

def address : Request → Word
  | read _ address | write _ address _ _ => address

/-- The address is a multiple of the number of bytes. -/
def Aligned (request : Request) : Prop := request.width.aligned request.address = true

instance : DecidablePred Aligned := fun _ => inferInstanceAs (Decidable (_ = true))

/-- The request is for a word at an aligned address. -/
def AlignedWord (request : Request) : Prop := request.width = .word ∧ request.Aligned

/-- The same request at another address. -/
def moved (change : Word → Word) : Request → Request
  | read width address => read width (change address)
  | write width address value mask => write width (change address) value mask

end Request

inductive Reply where
  | value (width : Width) (answer : Except BusError (BitVec width.bits))
  | stored (answer : Except BusError Unit)

namespace Bus

section

variable {β γ : Type} [Bus β] [Bus γ]

def serve (memory : β) : Request → Reply × β
  | .read width address =>
    let (answer, memory) := read memory width address
    (.value width answer, memory)
  | .write width address value mask =>
    let (answer, memory) := write memory width address value mask
    (.stored answer, memory)

/-- The replies to requests made one after the other, and the memory after them. -/
def serveAll (memory : β) : List Request → List Reply × β
  | [] => ([], memory)
  | request :: rest =>
    let (reply, memory) := serve memory request
    let (replies, memory) := serveAll memory rest
    (reply :: replies, memory)

/-- Related memories reply alike to each allowed request, which the second one gets as its
counterpart, and are related again after it. -/
def Follows (related : β → γ → Prop) (allowed : Request → Prop)
    (counterpart : Request → Request) : Prop :=
  ∀ first second request, related first second → allowed request →
    (serve first request).1 = (serve second (counterpart request)).1 ∧
      related (serve first request).2 (serve second (counterpart request)).2

theorem Follows.serveAll {related : β → γ → Prop} {allowed : Request → Prop}
    {counterpart : Request → Request} (follows : Follows related allowed counterpart)
    {first : β} {second : γ} (initial : related first second) {requests : List Request}
    (fine : ∀ request ∈ requests, allowed request) :
    (serveAll first requests).1 = (serveAll second (requests.map counterpart)).1 ∧
      related (serveAll first requests).2 (serveAll second (requests.map counterpart)).2 := by
  -- Both memories change with every request, so the induction is over all related pairs.
  induction requests generalizing first second with
  | nil => exact ⟨rfl, initial⟩
  | cons request rest ih =>
    obtain ⟨reply, still⟩ := follows first second request initial (fine request List.mem_cons_self)
    obtain ⟨replies, final⟩ :=
      ih still fun later member => fine later (List.mem_cons_of_mem _ member)
    exact ⟨List.cons_eq_cons.mpr ⟨reply, replies⟩, final⟩

theorem Follows.read {related : β → γ → Prop} {allowed : Request → Prop}
    (follows : Follows related allowed id) {first : β} {second : γ}
    (initial : related first second) {width : Width} {address : Word}
    (fine : allowed (.read width address)) :
    (Bus.read first width address).1 = (Bus.read second width address).1 ∧
      related (Bus.read first width address).2 (Bus.read second width address).2 := by
  obtain ⟨replies, still⟩ := follows first second _ initial fine
  exact ⟨eq_of_heq (Reply.value.inj replies).2, still⟩

theorem Follows.write {related : β → γ → Prop} {allowed : Request → Prop}
    (follows : Follows related allowed id) {first : β} {second : γ}
    (initial : related first second) {width : Width} {address : Word}
    {value mask : BitVec width.bits} (fine : allowed (.write width address value mask)) :
    (Bus.write first width address value mask).1 = (Bus.write second width address value mask).1 ∧
      related (Bus.write first width address value mask).2
        (Bus.write second width address value mask).2 := by
  obtain ⟨replies, still⟩ := follows first second _ initial fine
  exact ⟨Reply.stored.inj replies, still⟩

/-- Memories that reply alike are seen to make the same answers to the same calls. -/
theorem Follows.watched {related : β → γ → Prop} {allowed : Request → Prop}
    (follows : Follows related allowed id) :
    Follows (fun (first : Watched β) (second : Watched γ) =>
      related first.memory second.memory ∧ first.calls = second.calls) allowed id := by
  rintro first second request ⟨memories, calls⟩ fine
  cases request with
  | read width address =>
    obtain ⟨answers, still⟩ := follows.read memories fine
    simp only [serve, id, Bus.read, answers, calls, still, and_self]
  | write width address value mask =>
    obtain ⟨answers, still⟩ := follows.write memories fine
    simp only [serve, id, Bus.write, answers, calls, still, and_self]

end

end Bus

end R3000
