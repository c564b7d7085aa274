/-
# The endpoint map

`src/endpoint_map.c`: the table that takes a remote endpoint to the id of its
tap device.  Every endpoint has two candidate slots, one for each nonce; an
insertion takes the first of the two that is free and never moves an entry.
When both are taken, and also when the table is full and has been doubled, the
table is wiped and filled again under fresh nonces until every entry and the
new one find a slot.

What the C library decides is an argument: `rand()` returns 31 bits, `malloc`
and `realloc` may fail, and `realloc` may leave the block where it is or move
it; the memory it appends is whatever the allocator had there.  The rebuild
loop has no bound, so `rebuildLoop` runs a given number of passes and answers
`none` when it is still looping after them.
-/

import Mathlib.Algebra.Group.Int.Defs
import Mathlib.Algebra.Group.Nat.Defs
import Mathlib.Data.List.Basic
import UdpEthTunnel.IpAddr

namespace UdpEthTunnel

/-- `endpoint_map_entry`.  The default value is an entry of zero bytes. -/
structure EndpointMapEntry where
  remoteAddr : IpAddr := ⟨0⟩
  port : U16 := 0
  present : Bool := false
  /-- the bit-field `int tap_id : 31` -/
  tapId : BitVec 31 := 0
deriving DecidableEq, Repr, Inhabited

def EndpointMapEntry.endpoint (x : EndpointMapEntry) : Endpoint := ⟨x.remoteAddr, x.port⟩

/-- `struct endpoint_map`; the block has room for `alloc_entries` entries. -/
structure EndpointMap where
  numEntries : ℕ
  allocEntries : ℕ
  nonceA : U32
  nonceB : U32
  entries : List EndpointMapEntry
  size_eq : entries.length = allocEntries

/-- What `rand()` returns: `RAND_MAX` is `2 ^ 31 - 1`. -/
abbrev Rand := BitVec 31

/-- `endpoint_map_create`: `calloc` succeeds or not, and the first two values of
`rand()` are the nonces. -/
def endpointMapCreate (calloc : Bool) (rand : ℕ → Rand) : Option EndpointMap :=
  if calloc then
    some { numEntries := 0, allocEntries := 32, nonceA := (rand 0).setWidth 32,
           nonceB := (rand 1).setWidth 32, entries := List.replicate 32 {},
           size_eq := List.length_replicate }
  else none

/-- `hash`: the four words of the address, the port and the nonce. -/
def hash (e : Endpoint) (nonce : U32) : U32 :=
  (List.range 4).foldl (fun h i => h ^^^ e.addr.dword i) nonce ^^^ e.port.setWidth 32

/-- `hash_small`: the bytes of the nonce, of the port, and of the address those
below `sizeof(ip_addr) / 4`, the first four. -/
def hashSmall (e : Endpoint) (nonce : U32) : U8 :=
  let nonceByte (i : ℕ) : U8 := nonce.extractLsb' (8 * i) 8
  let portByte (i : ℕ) : U8 := e.port.extractLsb' (8 * i) 8
  (List.range 4).foldl (fun h i => h ^^^ e.addr.byte i)
      (nonceByte 0 ^^^ nonceByte 1 ^^^ nonceByte 2 ^^^ nonceByte 3) ^^^
    (portByte 0 ^^^ portByte 1)

namespace EndpointMap

/-- The slot of an endpoint under a nonce. -/
def slot (m : EndpointMap) (nonce : U32) (e : Endpoint) : ℕ :=
  if m.allocEntries ≤ 256 then (hashSmall e nonce).toNat &&& (m.allocEntries - 1)
  else (hash e nonce).toNat &&& (m.allocEntries - 1)

/-- `hash_a`; `try_insert`, `endpoint_map_lookup` and `endpoint_map_remove` all
open with the same computation of the two slots. -/
def hashA (m : EndpointMap) (e : Endpoint) : ℕ := m.slot m.nonceA e

/-- `hash_b`. -/
def hashB (m : EndpointMap) (e : Endpoint) : ℕ := m.slot m.nonceB e

/-- `map->entries[i]`. -/
def entry (m : EndpointMap) (i : ℕ) : EndpointMapEntry := m.entries.getD i {}

def setEntry (m : EndpointMap) (i : ℕ) (x : EndpointMapEntry) : EndpointMap :=
  { m with entries := m.entries.set i x, size_eq := by rw [List.length_set, m.size_eq] }

end EndpointMap

/-- The loop of `try_insert` over the slots of an endpoint; `none` is `false`,
and then the map is as it was. -/
def tryInsertLoop (m : EndpointMap) (e : Endpoint) (tapId : Int) :
    List ℕ → Option EndpointMap
  | [] => none
  | i :: rest =>
    let entry := m.entry i
    if entry.present then
      if e.addr.addr = entry.remoteAddr.addr ∧ entry.port = e.port then
        some (m.setEntry i { entry with tapId := .ofInt 31 tapId })
      else tryInsertLoop m e tapId rest
    else
      some { m.setEntry i { remoteAddr := e.addr, port := e.port, tapId := .ofInt 31 tapId,
                            present := true } with
             numEntries := m.numEntries + 1 }

/-- `try_insert`. -/
def tryInsert (m : EndpointMap) (e : Endpoint) (tapId : Int) : Option EndpointMap :=
  tryInsertLoop m e tapId [m.hashA e, m.hashB e]

/-- The loop of `endpoint_map_lookup`. -/
def lookupLoop (m : EndpointMap) (e : Endpoint) : List ℕ → Int
  | [] => -1
  | i :: rest =>
    let entry := m.entry i
    if entry.present ∧ e.addr.addr = entry.remoteAddr.addr ∧ entry.port = e.port then
      entry.tapId.toInt
    else lookupLoop m e rest

/-- `endpoint_map_lookup`. -/
def endpointMapLookup (m : EndpointMap) (e : Endpoint) : Int :=
  lookupLoop m e [m.hashA e, m.hashB e]

/-- `realloc` of the table: it fails, or it appends the entries `tail` to the
block, where it is or at a new place. -/
inductive Realloc where
  | failed
  | inPlace (tail : ℕ → EndpointMapEntry)
  | moved (tail : ℕ → EndpointMapEntry)

/-- What the C library does during one call of `endpoint_map_add`. -/
structure AddEnv where
  realloc : Realloc
  malloc : Bool
  rand : ℕ → Rand

/-- How a call of `endpoint_map_add` ends. -/
inductive AddOutcome where
  /-- returns the block it was given, which now holds `m` -/
  | kept (m : EndpointMap)
  /-- returns a new block that holds `m`; the one it was given is released -/
  | moved (m : EndpointMap)
  /-- returns `NULL`; the block it was given is still live and holds `m` -/
  | nullKept (m : EndpointMap)
  /-- returns `NULL` after `realloc` has released the block it was given -/
  | nullMoved

/-- The map a call returns, if it returns one. -/
def AddOutcome.ret : AddOutcome → Option EndpointMap
  | .kept m | .moved m => some m
  | .nullKept _ | .nullMoved => none

namespace EndpointMap

/-- The doubled table, with the memory `realloc` appended. -/
def grow (m : EndpointMap) (tail : ℕ → EndpointMapEntry) : EndpointMap :=
  { m with
    allocEntries := m.allocEntries * 2
    entries := m.entries ++ (List.range m.allocEntries).map tail
    size_eq := by rw [List.length_append, List.length_map, List.length_range, m.size_eq]; omega }

/-- The wiped table at the start of a pass, under its new nonces. -/
def reset (m : EndpointMap) (nonceA nonceB : Rand) : EndpointMap :=
  { m with
    numEntries := 0
    nonceA := nonceA.setWidth 32
    nonceB := nonceB.setWidth 32
    entries := List.replicate m.allocEntries {}
    size_eq := List.length_replicate }

end EndpointMap

/-- The inner loop of a pass: insert the present entries of the copied table. -/
def reinsert (m : EndpointMap) : List EndpointMapEntry → Option EndpointMap
  | [] => some m
  | x :: xs =>
    if x.present then
      match tryInsert m x.endpoint x.tapId.toInt with
      | none => none
      | some m' => reinsert m' xs
    else reinsert m xs

/-- One pass of the rebuild loop; `none` when some entry finds both its slots
taken. -/
def rebuildPass (m : EndpointMap) (table : List EndpointMapEntry) (nonceA nonceB : Rand)
    (e : Endpoint) (tapId : Int) : Option EndpointMap :=
  match reinsert (m.reset nonceA nonceB) table with
  | none => none
  | some m' => tryInsert m' e tapId

/-- The rebuild loop, for at most the given number of passes.  A pass wipes what
the pass before it left, so it starts from `m` again. -/
def rebuildLoop (m : EndpointMap) (table : List EndpointMapEntry) (e : Endpoint)
    (tapId : Int) : ℕ → (ℕ → Rand) → Option EndpointMap
  | 0, _ => none
  | passes + 1, rand =>
    match rebuildPass m table (rand 0) (rand 1) e tapId with
    | some m' => some m'
    | none => rebuildLoop m table e tapId passes fun i => rand (i + 2)

/-- `endpoint_map_add`; `none` when the rebuild loop is still running after the
given number of passes. -/
def endpointMapAdd (env : AddEnv) (passes : ℕ) (m : EndpointMap) (e : Endpoint) (tapId : Int) :
    Option AddOutcome :=
  let rebuild (m : EndpointMap) := rebuildLoop m m.entries e tapId passes env.rand
  if m.numEntries ≥ m.allocEntries then
    match env.realloc with
    | .failed => some (.nullKept m)
    | .inPlace tail =>
      if env.malloc then (rebuild (m.grow tail)).map .kept else some (.nullKept (m.grow tail))
    | .moved tail => if env.malloc then (rebuild (m.grow tail)).map .moved else some .nullMoved
  else
    match tryInsert m e tapId with
    | some m' => some (.kept m')
    | none => if env.malloc then (rebuild m).map .kept else some (.nullKept m)

end UdpEthTunnel
