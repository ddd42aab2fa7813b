import Mathlib.Data.List.Basic
import SandboxedApi.Util.Status

namespace SandboxedApi

/-- `SimpleAllocator::Metadata`. -/
structure Metadata where
  addr : Nat
  isFree : Bool
  size : Nat
  deriving DecidableEq, Repr

structure SimpleAllocator where
  localPtr : Nat
  size : Nat
  memory : Nat → UInt8
  allBlocks : List Metadata
  freeBlocks : List Nat

/-- `InvalidArgumentError("Invalid pointer")`. -/
def invalidPointer : Status := ⟨.invalidArgument, "Invalid pointer"⟩

namespace Blocks

/-- `all_blocks_.find(addr)`. -/
def find (blocks : List Metadata) (addr : Nat) : Option Metadata :=
  blocks.find? (fun b => b.addr = addr)

/-- `std::next` of the entry at `addr`: the entry with the next larger address. -/
def next (blocks : List Metadata) (addr : Nat) : Option Metadata :=
  (blocks.filter (fun b => addr < b.addr)).head?

/-- `std::prev` of the entry at `addr`: the entry with the next smaller address. -/
def prev (blocks : List Metadata) (addr : Nat) : Option Metadata :=
  (blocks.filter (fun b => b.addr < addr)).getLast?

/-- `--all_blocks_.upper_bound(addr)`, when `upper_bound` is not `begin()`: the entry with the
greatest address not above `addr`. -/
def floor (blocks : List Metadata) (addr : Nat) : Option Metadata :=
  (blocks.filter (fun b => b.addr ≤ addr)).getLast?

/-- `all_blocks_.insert({b.addr, b})`, which leaves an entry already at that key alone. -/
def insert (blocks : List Metadata) (b : Metadata) : List Metadata :=
  if blocks.any (fun c => c.addr = b.addr) then blocks
  else blocks.filter (fun c => c.addr < b.addr) ++ b :: blocks.filter (fun c => b.addr < c.addr)

/-- `all_blocks_.erase` of the entry at `addr`. -/
def erase (blocks : List Metadata) (addr : Nat) : List Metadata :=
  blocks.filter (fun b => b.addr ≠ addr)

def modify (blocks : List Metadata) (addr : Nat) (f : Metadata → Metadata) : List Metadata :=
  blocks.map (fun b => if b.addr = addr then f b else b)

end Blocks

/-- `MetadataComp` on two blocks: `std::tie(l->size, l->addr) < std::tie(r->size, r->addr)`. -/
def metadataLt (l r : Metadata) : Prop :=
  l.size < r.size ∨ (l.size = r.size ∧ l.addr < r.addr)

instance (l r : Metadata) : Decidable (metadataLt l r) :=
  inferInstanceAs (Decidable (l.size < r.size ∨ (l.size = r.size ∧ l.addr < r.addr)))

def leastBlock : List Metadata → Option Metadata
  | [] => none
  | b :: bs =>
    match leastBlock bs with
    | none => some b
    | some c => if metadataLt c b then some c else some b

namespace SimpleAllocator

def init (localPtr size : Nat) (memory : Nat → UInt8) : SimpleAllocator :=
  ⟨localPtr, size, memory, [⟨localPtr, true, size⟩], [localPtr]⟩

def freeSet (a : SimpleAllocator) : List Metadata :=
  a.freeBlocks.filterMap (Blocks.find a.allBlocks)

/-- `free_blocks_.lower_bound(size)` with the comparisons `MetadataComp` has for a size: the
first block of the set, in its order, that is not smaller than `size`. -/
def lowerBoundFree (a : SimpleAllocator) (size : Nat) : Option Metadata :=
  leastBlock (a.freeSet.filter (fun b => ¬ b.size < size))

/-- `free_blocks_.erase` of the pointer to the block at `addr`. -/
def eraseFree (a : SimpleAllocator) (addr : Nat) : SimpleAllocator :=
  { a with freeBlocks := a.freeBlocks.erase addr }

/-- `free_blocks_.insert` (or `emplace`) of the pointer to the block at `addr`, which leaves the
set alone when it holds that pointer already. -/
def insertFree (a : SimpleAllocator) (addr : Nat) : SimpleAllocator :=
  if addr ∈ a.freeBlocks then a else { a with freeBlocks := addr :: a.freeBlocks }

def modifyBlock (a : SimpleAllocator) (addr : Nat) (f : Metadata → Metadata) : SimpleAllocator :=
  { a with allBlocks := Blocks.modify a.allBlocks addr f }

def eraseBlock (a : SimpleAllocator) (addr : Nat) : SimpleAllocator :=
  { a with allBlocks := Blocks.erase a.allBlocks addr }

def insertBlock (a : SimpleAllocator) (b : Metadata) : SimpleAllocator :=
  { a with allBlocks := Blocks.insert a.allBlocks b }

/-- `SplitBlock(block, size)`, for `block` the current value of the entry it points to: the
block keeps the first `size` bytes and the rest becomes a new free block. -/
def splitBlock (a : SimpleAllocator) (block : Metadata) (size : Nat) : SimpleAllocator :=
  let nextAddr := block.addr + size
  let nextSize := block.size - size
  let a := a.modifyBlock block.addr (fun b => { b with size := size })
  let a := a.insertBlock ⟨nextAddr, true, nextSize⟩
  a.insertFree nextAddr

def absorbNext (a : SimpleAllocator) (block next : Metadata) : SimpleAllocator × Metadata :=
  let a := a.modifyBlock block.addr (fun b => { b with size := b.size + next.size })
  (((a.eraseFree next.addr).eraseBlock next.addr), { block with size := block.size + next.size })

end SimpleAllocator

def kAlignment : Nat := 8

/-- `RoundUp`, in `size_t`: `(size + alignment - 1) & ~(alignment - 1)`. -/
def roundUp (size alignment : Nat) : Nat :=
  ((size + alignment - 1) % 2 ^ 64) &&& (2 ^ 64 - 1 - (alignment - 1))

def kMaxAllocatableSize : Nat := (2 ^ 64 - 1 - kAlignment) &&& (2 ^ 64 - 1 - (kAlignment - 1))

/-- `AlignSize`. -/
def alignSize (size : Nat) : Except Status Nat :=
  if size = 0 ∨ size > kMaxAllocatableSize then .error ⟨.invalidArgument, "Size is zero or too large"⟩
  else .ok (roundUp size kAlignment)

/-- `memcpy(dest, src, n)` on the bytes of the region. -/
def memcpy (memory : Nat → UInt8) (dest src n : Nat) : Nat → UInt8 :=
  fun i => if dest ≤ i ∧ i < dest + n then memory (src + (i - dest)) else memory i

namespace SimpleAllocator

/-- `SimpleAllocator::Allocate`. -/
def allocate (size : Nat) : EStateM Status SimpleAllocator Nat := fun a =>
  match alignSize size with
  | .error e => .error e a
  | .ok size =>
    match a.lowerBoundFree size with
    | none => .error ⟨.resourceExhausted, "Not enough memory"⟩ a
    | some block =>
      let a := (a.eraseFree block.addr).modifyBlock block.addr (fun b => { b with isFree := false })
      let block := { block with isFree := false }
      let a := if block.size > size then a.splitBlock block size else a
      .ok block.addr a

def mergeNext (a : SimpleAllocator) (ptr : Nat) (block : Metadata) : SimpleAllocator × Metadata :=
  match Blocks.next a.allBlocks ptr with
  | some next => if next.isFree then a.absorbNext block next else (a, block)
  | none => (a, block)

def mergePrev (a : SimpleAllocator) (ptr : Nat) (block : Metadata) : SimpleAllocator :=
  match Blocks.prev a.allBlocks ptr with
  | some prev =>
    if prev.isFree then
      let a := (a.eraseFree prev.addr).modifyBlock prev.addr
        (fun p => { p with size := p.size + block.size })
      (a.insertFree prev.addr).eraseBlock ptr
    else a.insertFree ptr
  | none => a.insertFree ptr

/-- `SimpleAllocator::Free`. -/
def free (ptr : Nat) : EStateM Status SimpleAllocator Unit := fun a =>
  match Blocks.find a.allBlocks ptr with
  | none => .error invalidPointer a
  | some block =>
    if block.isFree then .error invalidPointer a
    else
      let a := a.modifyBlock ptr (fun b => { b with isFree := true })
      let (a, block) := a.mergeNext ptr { block with isFree := true }
      .ok () (a.mergePrev ptr block)

def growIntoNext (a : SimpleAllocator) (current : Metadata) (size : Nat) :
    SimpleAllocator × Metadata :=
  if current.size < size then
    match Blocks.next a.allBlocks current.addr with
    | some next =>
      if next.isFree ∧ current.size + next.size ≥ size then a.absorbNext current next
      else (a, current)
    | none => (a, current)
  else (a, current)

/-- `SimpleAllocator::Reallocate`: in place when the block, perhaps grown into the next one, is
large enough; otherwise a new allocation, a copy and a `Free` of the old block. -/
def reallocate (oldAddr size : Nat) : EStateM Status SimpleAllocator Nat := fun a =>
  match alignSize size with
  | .error e => .error e a
  | .ok size =>
    match Blocks.find a.allBlocks oldAddr with
    | none => .error invalidPointer a
    | some current =>
      let oldSize := current.size
      let (a, current) := a.growIntoNext current size
      if current.size ≥ size then
        .ok oldAddr (if current.size > size then a.splitBlock current size else a)
      else
        match (allocate size).run a with
        | .error e a => .error e a
        | .ok newAddr a =>
          let a := { a with memory := memcpy a.memory newAddr oldAddr (min oldSize size) }
          match (free oldAddr).run a with
          | .error e a => .error e a
          | .ok () a => .ok newAddr a

/-- `SimpleAllocator::GetAllocationMetadata`: the block that holds `ptr`, free or not. -/
def getAllocationMetadata (a : SimpleAllocator) (ptr : Nat) : Except Status Metadata :=
  match Blocks.floor a.allBlocks ptr with
  | none => .error invalidPointer
  | some block =>
    if ptr < block.addr ∨ ptr ≥ block.addr + block.size then .error invalidPointer
    else .ok block

end SimpleAllocator

structure SharedMemoryRPCChannel where
  localBaseAddress : Nat
  remoteBaseAddress : Nat
  size : Nat

namespace SharedMemoryRPCChannel

def isWithinRemoteSharedMemoryRegion (channel : SharedMemoryRPCChannel) (remotePtr : Nat) :
    Bool :=
  remotePtr ≥ channel.remoteBaseAddress && remotePtr < channel.remoteBaseAddress + channel.size

def toLocalAddr (channel : SharedMemoryRPCChannel) (remoteAddr : Nat) : Nat :=
  channel.localBaseAddress + (remoteAddr - channel.remoteBaseAddress)

/-- `EnsureWithinAllocationBounds`; `offset + size` is a `size_t` sum. -/
def ensureWithinAllocationBounds (allocator : SimpleAllocator) (localPtr size : Nat) :
    Except Status Unit := do
  let metadata ← allocator.getAllocationMetadata localPtr
  let offset := localPtr - metadata.addr
  if (offset + size) % 2 ^ 64 > metadata.size then
    throw ⟨.internal, "Range is out of bounds."⟩
  pure ()

inductive CopyRoute where
  | fallback
  | refused (status : Status)
  | shared (localAddr : Nat)
  deriving DecidableEq, Repr

def copyRoute (channel : SharedMemoryRPCChannel) (allocator : SimpleAllocator)
    (remotePtr len : Nat) : CopyRoute :=
  if channel.isWithinRemoteSharedMemoryRegion remotePtr then
    let localAddr := channel.toLocalAddr remotePtr
    match ensureWithinAllocationBounds allocator localAddr len with
    | .error s => .refused s
    | .ok () => .shared localAddr
  else .fallback

end SharedMemoryRPCChannel

end SandboxedApi
