/-!
# Native memory

`Memory` holds the blocks that native code has allocated. A block reads as zeros except where it
was written. Addresses are never given out twice.
-/

namespace TypeBridge

/-- A block of zeroed memory with the octets written to it, the latest first. -/
structure Block where
  address : Nat
  size : Nat
  written : List (Nat × UInt8)
deriving Repr

/-- The blocks that are allocated, and the lowest address not yet given out. -/
structure Memory where
  blocks : List Block
  fresh : Nat
deriving Repr

namespace Memory

/-- Memory without blocks. -/
def empty : Memory := ⟨[], 0x1000⟩

/-- A request of this size or more is refused. -/
def limit : Nat := 0x800000000000

/-- Allocate a zeroed block: its address, or zero where the request is refused. -/
def allocate (size : Nat) (memory : Memory) : Nat × Memory :=
  if size ≥ limit then (0, memory)
  else
    (memory.fresh,
      { blocks := ⟨memory.fresh, size, []⟩ :: memory.blocks
        fresh := memory.fresh + (size / 16 + 1) * 16 })

/-- Give a block back. -/
def free (address : Nat) (memory : Memory) : Memory :=
  { memory with blocks := memory.blocks.filter (fun block => block.address != address) }

/-- The block that holds an address. -/
def block? (address : Nat) (memory : Memory) : Option Block :=
  memory.blocks.find? fun block =>
    block.address ≤ address && address < block.address + max block.size 1

/-- The octet at an address; zero outside all blocks. -/
def load (address : Nat) (memory : Memory) : UInt8 :=
  match memory.block? address with
  | some block => (block.written.lookup (address - block.address)).getD 0
  | none => 0

/-- Write an octet; a write outside all blocks is lost. -/
def store (address : Nat) (octet : UInt8) (memory : Memory) : Memory :=
  { memory with
    blocks := memory.blocks.map fun block =>
      if block.address ≤ address ∧ address < block.address + block.size then
        { block with written := (address - block.address, octet) :: block.written }
      else block }

/-- The octets from an address on. -/
def loadAll (address count : Nat) (memory : Memory) : List UInt8 :=
  (List.range count).map fun i => memory.load (address + i)

/-- Write octets from an address on. -/
def storeAll (address : Nat) (octets : List UInt8) (memory : Memory) : Memory :=
  (octets.zipIdx).foldl (fun memory (octet, i) => memory.store (address + i) octet) memory

end Memory

end TypeBridge
