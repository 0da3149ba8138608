import Mathlib.Data.List.Perm.Basic
import Mathlib.Data.BitVec

/-!
# The hash table

`src/ccan/htable/htable.c`: a table of `2 ^ bits` words with open addressing.  A slot has `0` (it is
empty), `1` (an entry was deleted) or an entry: the bits in which the pointers of the table differ,
and in the bits all of them share (`commonMask`) some more bits of the hash.  One of these, the
perfect bit, tells that an entry is in the slot its hash asks for.

Pointers, hashes and slots are words of `w` bits.  A loop that runs as long as it finds no free slot
is given a number of steps, and is `none` if it is not done by then.
-/

namespace Ocserv

namespace Ccan

variable {w : ℕ}

/-- `HTABLE_DELETED`. -/
def htableDeleted : BitVec w := 1

/-- `struct htable`, but for the hash function. -/
structure Htable (w : ℕ) where
  bits : ℕ
  elems : ℕ
  deleted : ℕ
  max : ℕ
  maxWithDeleted : ℕ
  commonMask : BitVec w
  commonBits : BitVec w
  perfectBit : BitVec w
  /-- `none` if it points to `perfect_bit`. -/
  table : Option (List (BitVec w))
  deriving DecidableEq, Repr

/-- `ht->table[i]`. -/
def Htable.slot (ht : Htable w) (i : ℕ) : BitVec w :=
  match ht.table with
  | none => ht.perfectBit
  | some table => table.getD i 0

/-- `ht->table[i] = e`. -/
def Htable.write (ht : Htable w) (i : ℕ) (e : BitVec w) : Htable w :=
  match ht.table with
  | none => { ht with perfectBit := e }
  | some table => { ht with table := some (table.set i e) }

/-- The number of slots. -/
def Htable.size (ht : Htable w) : ℕ := 2 ^ ht.bits

/-- `get_extra_ptr_bits`. -/
def Htable.getExtraPtrBits (ht : Htable w) (e : BitVec w) : BitVec w := e &&& ht.commonMask

/-- `get_raw_ptr`. -/
def Htable.getRawPtr (ht : Htable w) (e : BitVec w) : BitVec w :=
  (e &&& ~~~ht.commonMask) ||| ht.commonBits

/-- `make_hval`. -/
def Htable.makeHval (ht : Htable w) (p bits : BitVec w) : BitVec w :=
  (p &&& ~~~ht.commonMask) ||| bits

/-- `entry_is_valid`. -/
def entryIsValid (e : BitVec w) : Bool := decide (htableDeleted < e)

/-- `get_hash_ptr_bits`. -/
def Htable.getHashPtrBits (ht : Htable w) (hash : BitVec w) : BitVec w :=
  (hash ^^^ (hash >>> ht.bits)) &&& ht.commonMask &&& ~~~ht.perfectBit

/-- `htable_init`. -/
def htableInit : Htable w := ⟨0, 0, 0, 0, 0, -1, 0, 0, none⟩

/-- `htable_clear`; the memory of the table is freed. -/
def htableClear (_ : Htable w) : Htable w := htableInit

/-- `hash_bucket`. -/
def Htable.hashBucket (ht : Htable w) (h : BitVec w) : ℕ := h.toNat &&& (2 ^ ht.bits - 1)

/-- The slot after `off`. -/
def Htable.succ (ht : Htable w) (off : ℕ) : ℕ := (off + 1) &&& (2 ^ ht.bits - 1)

/-! ### Lookups -/

/-- The loop of `htable_val`: the offset of the iterator, and the pointer that is found or `0`. -/
def Htable.htableVal (ht : Htable w) (perfect : BitVec w) :
    ℕ → ℕ → BitVec w → Option (ℕ × BitVec w)
  | 0, _, _ => none
  | fuel + 1, off, h2 =>
    if ht.slot off = 0 then some (off, 0)
    else if ht.slot off ≠ htableDeleted ∧ ht.getExtraPtrBits (ht.slot off) = h2 then
      some (off, ht.getRawPtr (ht.slot off))
    else ht.htableVal perfect fuel (ht.succ off) (h2 &&& ~~~perfect)

/-- `htable_firstval`. -/
def Htable.htableFirstval (ht : Htable w) (hash : BitVec w) : Option (ℕ × BitVec w) :=
  ht.htableVal ht.perfectBit ht.size (ht.hashBucket hash)
    (ht.getHashPtrBits hash ||| ht.perfectBit)

/-- `htable_nextval`. -/
def Htable.htableNextval (ht : Htable w) (off : ℕ) (hash : BitVec w) : Option (ℕ × BitVec w) :=
  ht.htableVal 0 ht.size (ht.succ off) (ht.getHashPtrBits hash ||| 0)

/-- `for (c = htable_firstval(ht, &i, h); c; c = htable_nextval(ht, &i, h))`, with a body that may
return. -/
def Htable.forVal {β : Type*} (ht : Htable w) (h : BitVec w) (body : ℕ → BitVec w → Option β) :
    ℕ → Option (ℕ × BitVec w) → Option (Option β)
  | _, none => none
  | 0, some _ => none
  | fuel + 1, some (off, c) =>
    if c = 0 then some none
    else
      match body off c with
      | some ret => some (some ret)
      | none => ht.forVal h body fuel (ht.htableNextval off h)

/-- `htable_get`. -/
def Htable.htableGet (ht : Htable w) (h : BitVec w) (cmp : BitVec w → Bool) :
    Option (Option (BitVec w)) :=
  ht.forVal h (fun _ c => if cmp c then some c else none) (ht.size + 1) (ht.htableFirstval h)

/-- The loop of `htable_first` and `htable_next`, of which so many slots are left. -/
def Htable.scan (ht : Htable w) : ℕ → ℕ → ℕ × BitVec w
  | 0, off => (off, 0)
  | left + 1, off =>
    if entryIsValid (ht.slot off) then (off, ht.getRawPtr (ht.slot off))
    else ht.scan left (off + 1)

/-- `htable_first`. -/
def Htable.htableFirst (ht : Htable w) : ℕ × BitVec w := ht.scan ht.size 0

/-- `htable_next`. -/
def Htable.htableNext (ht : Htable w) (off : ℕ) : ℕ × BitVec w :=
  ht.scan (ht.size - (off + 1)) (off + 1)

/-! ### Additions -/

/-- The loop of `ht_add`: the slot it stops at, and what is left of the perfect bit. -/
def Htable.findFree (ht : Htable w) : ℕ → ℕ → BitVec w → Option (ℕ × BitVec w)
  | 0, _, _ => none
  | fuel + 1, i, perfect =>
    if entryIsValid (ht.slot i) then ht.findFree fuel (ht.succ i) 0 else some (i, perfect)

/-- `ht_add`. -/
def Htable.htAdd (ht : Htable w) (new h : BitVec w) : Option (Htable w) :=
  (ht.findFree ht.size (ht.hashBucket h) ht.perfectBit).map fun (i, perfect) =>
    ht.write i (ht.makeHval new (ht.getHashPtrBits h ||| perfect))

/-- The lowest bit of the common mask. -/
def Htable.lowestCommon (ht : Htable w) : Option ℕ :=
  (List.range w).find? ht.commonMask.getLsbD

/-- `double_table` before it goes over the old table: twice the slots, all of them empty, and a
perfect bit if none was left. -/
def Htable.doubled (ht : Htable w) : Htable w :=
  let bits := ht.bits + 1
  { ht with
    bits := bits
    max := 3 * 2 ^ bits / 4
    maxWithDeleted := 9 * 2 ^ bits / 10
    perfectBit :=
      if ht.perfectBit = 0 ∧ ht.commonMask ≠ 0 then
        (ht.lowestCommon.map fun i => (1 : BitVec w) <<< i).getD ht.perfectBit
      else ht.perfectBit
    table := some (List.replicate (2 ^ bits) 0) }

/-- The entries of the old table, over which `double_table` goes. -/
def Htable.oldEntries (ht : Htable w) : List (BitVec w) := (ht.table.getD []).filter entryIsValid

/-- `double_table`.  From 31 bits on, `1 << bits` is negative as an `int`, and there is no memory
of the size that becomes. -/
def Htable.doubleTable (ht : Htable w) (calloc : Bool) (rehash : BitVec w → BitVec w) :
    Option (Bool × Htable w) :=
  if !calloc || decide (31 ≤ ht.bits + 1) then some (false, ht)
  else
    (ht.oldEntries.foldlM
      (fun (ht : Htable w) e => ht.htAdd (ht.getRawPtr e) (rehash (ht.getRawPtr e)))
      ht.doubled).map fun ht => (true, { ht with deleted := 0 })

/-- The body of the loop of `rehash_table`. -/
def Htable.rehashSlot (ht : Htable w) (rehash : BitVec w → BitVec w) (start i : ℕ) :
    Option (Htable w) :=
  let h := (i + start) &&& (2 ^ ht.bits - 1)
  let e := ht.slot h
  if e = 0 then some ht
  else if e = htableDeleted then some (ht.write h 0)
  else if e &&& ht.perfectBit = 0 then
    let p := ht.getRawPtr e
    (ht.write h 0).htAdd p (rehash p)
  else some ht

/-- The first empty slot, from which `rehash_table` starts. -/
def Htable.firstEmpty (ht : Htable w) : Option ℕ :=
  (List.range ht.size).find? fun i => decide (ht.slot i = 0)

/-- `rehash_table`. -/
def Htable.rehashTable (ht : Htable w) (rehash : BitVec w → BitVec w) : Option (Htable w) := do
  let start ← ht.firstEmpty
  let ht ← (List.range ht.size).foldlM (fun ht i => ht.rehashSlot rehash start i) ht
  return { ht with deleted := 0 }

/-- The loop of `update_common` that looks for the highest bit of a pointer, from bit `i`. -/
def highestBit (p : BitVec w) : ℕ → ℕ
  | 0 => 0
  | i + 1 => if p.getLsbD (i + 1) then i + 1 else highestBit p i

/-- The bit of a pointer `update_common` reveals if the table is empty. -/
def revealedBit (p : BitVec w) : BitVec w := (1 : BitVec w) <<< highestBit p (w - 1)

/-- `update_common`. -/
def Htable.updateCommon (ht : Htable w) (p : BitVec w) : Htable w :=
  if ht.elems = 0 then
    { ht with
      commonMask := ~~~revealedBit p
      commonBits := p &&& ~~~revealedBit p
      perfectBit := 1 }
  else
    let maskdiff := ht.commonBits ^^^ (p &&& ht.commonMask)
    let bitsdiff := ht.commonBits &&& maskdiff
    { ht with
      commonMask := ht.commonMask &&& ~~~maskdiff
      commonBits := ht.commonBits &&& ~~~maskdiff
      perfectBit := ht.perfectBit &&& ~~~maskdiff
      table := ht.table.map fun table => table.map fun e =>
        if entryIsValid e then (e &&& ~~~maskdiff) ||| bitsdiff else e }

/-- `htable_add` makes room for one more element; `false` if there is no memory. -/
def Htable.grow (ht : Htable w) (calloc : Bool) (rehash : BitVec w → BitVec w) :
    Option (Bool × Htable w) :=
  if ht.elems + 1 > ht.max then ht.doubleTable calloc rehash else some (true, ht)

/-- `htable_add` takes away deleted slots if there are too many. -/
def Htable.tidy (ht : Htable w) (rehash : BitVec w → BitVec w) : Option (Htable w) :=
  if ht.elems + 1 + ht.deleted > ht.maxWithDeleted then ht.rehashTable rehash else some ht

/-- `htable_add` keeps the bits in which the new pointer differs from the others. -/
def Htable.fit (ht : Htable w) (p : BitVec w) : Htable w :=
  if p &&& ht.commonMask ≠ ht.commonBits then ht.updateCommon p else ht

/-- `htable_add`. -/
def Htable.htableAdd (ht : Htable w) (calloc : Bool) (rehash : BitVec w → BitVec w)
    (hash p : BitVec w) : Option (Bool × Htable w) :=
  (ht.grow calloc rehash).bind fun (ok, ht) =>
    if !ok then some (false, ht)
    else
      (ht.tidy rehash).bind fun ht =>
        ((ht.fit p).htAdd p hash).map fun ht => (true, { ht with elems := ht.elems + 1 })

/-! ### Deletions -/

/-- `htable_delval`. -/
def Htable.htableDelval (ht : Htable w) (off : ℕ) : Htable w :=
  let ht := ({ ht with elems := ht.elems - 1 }).write off htableDeleted
  { ht with deleted := ht.deleted + 1 }

/-- `htable_del`. -/
def Htable.htableDel (ht : Htable w) (h p : BitVec w) : Option (Bool × Htable w) :=
  (ht.forVal h (fun off c => if c = p then some off else none) (ht.size + 1)
    (ht.htableFirstval h)).map fun
    | some off => (true, ht.htableDelval off)
    | none => (false, ht)

/-- `for (c = htable_first(ht, &i); c; c = htable_next(ht, &i))`, with a body that may delete the
element it is at; so many slots are left. -/
def Htable.forEach {σ : Type*} (body : σ → BitVec w → σ × Bool) :
    ℕ → Htable w → ℕ × BitVec w → σ → Htable w × σ
  | 0, ht, _, s => (ht, s)
  | left + 1, ht, (off, c), s =>
    if c = 0 then (ht, s)
    else
      let ret := body s c
      let ht := if ret.2 then ht.htableDelval off else ht
      ht.forEach body left (ht.htableNext off) ret.1

/-- A small table: the second element is put behind the first, which has its slot. -/
example : ((htableInit : Htable 8).htableAdd true (fun _ => 0) 0 0x50).bind
    (fun r => r.2.htableAdd true (fun _ => 0) 0 0x58) =
      some (true, ⟨2, 2, 0, 3, 3, 0xb7, 0x10, 1, some [0x41, 0x48, 0, 0]⟩) := by
  decide

end Ccan

end Ocserv
