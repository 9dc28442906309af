import BoringSSL.Cbb
import BoringSSL.Lib.Keyed

/-!
# `crypto/lhash/lhash.cc`

`data` is of any type `P`; `hash` and `cmp` are what `call_hash_func` and `call_cmp_func` return for
the table's own functions.  A bucket is the list of the items of its chain, so `num_buckets` is the
size of `buckets`, and a pointer to a `next` field (or to a bucket) is a `Slot`: a bucket and a
place in its chain.

`Lhash.run` is a run of calls on a new table.  An allocation may fail in any of them.
-/

namespace BoringSSL

/-- `struct lhash_item_st`; `next` is the rest of the chain. -/
structure LhashItem (P : Type) where
  data : P
  hash : UInt32
  deriving DecidableEq, Repr

/-- `lhash_st`: chains by hash. -/
structure Lhash (P : Type) where
  numItems : ℕ
  buckets : Array (List (LhashItem P))
  callbackDepth : ℕ
  deriving DecidableEq, Repr

/-- A `LHASH_ITEM **`: the head of a chain, or the `next` field of the item before `pos`. -/
structure Slot where
  bucket : ℕ
  pos : ℕ
  deriving DecidableEq, Repr

namespace Lhash

variable {P A : Type} (hash : P → UInt32) (cmp : P → P → ℤ)

def kMinNumBuckets : ℕ := 16

def kMaxAverageChainLength : ℕ := 2

def kMinAverageChainLength : ℕ := 1

def uintMax : ℕ := 2 ^ 32 - 1

def lhNew : Lhash P := ⟨0, Array.replicate kMinNumBuckets [], 0⟩

variable (lh : Lhash P)

def numBuckets : ℕ := lh.buckets.size

def chain (i : ℕ) : List (LhashItem P) := lh.buckets.getD i []

def load (slot : Slot) : Option (LhashItem P) := (lh.chain slot.bucket)[slot.pos]?

def store (slot : Slot) (rest : List (LhashItem P)) : Lhash P :=
  { lh with
    buckets := lh.buckets.modify slot.bucket fun chain => chain.take slot.pos ++ rest }

def next (slot : Slot) : List (LhashItem P) := (lh.chain slot.bucket).drop (slot.pos + 1)

def getNextPtrAndHash (data : P) : Slot × UInt32 :=
  let bucket := (hash data).toNat % lh.numBuckets
  (⟨bucket, (lh.chain bucket).findIdx fun cur => cmp cur.data data = 0⟩, hash data)

/-- `cmpKey` is `cmp_key` at the key. -/
def getNextPtrByKey (keyHash : UInt32) (cmpKey : P → ℤ) : Slot :=
  let bucket := keyHash.toNat % lh.numBuckets
  ⟨bucket, (lh.chain bucket).findIdx fun cur => cmpKey cur.data = 0⟩

def lhRetrieve (data : P) : Option P :=
  (lh.load (lh.getNextPtrAndHash hash cmp data).1).map (·.data)

def lhRetrieveKey (keyHash : UInt32) (cmpKey : P → ℤ) : Option P :=
  (lh.load (lh.getNextPtrByKey keyHash cmpKey)).map (·.data)

/-- An item is put at the head of its chain in the new array. -/
def rebucketItem (newNumBuckets : ℕ) (newBuckets : Array (List (LhashItem P)))
    (cur : LhashItem P) : Array (List (LhashItem P)) :=
  newBuckets.modify (cur.hash.toNat % newNumBuckets) fun next => cur :: next

def lhRebucket (newNumBuckets : ℕ) (allocOk : Bool) : Lhash P :=
  let allocSize := 8 * newNumBuckets % sizeMod
  if allocSize / 8 ≠ newNumBuckets then lh
  else if allocOk = false then lh
  else { lh with
    buckets := lh.buckets.foldl (fun newBuckets chain =>
      chain.foldl (rebucketItem newNumBuckets) newBuckets) (Array.replicate newNumBuckets []) }

def lhMaybeResize (allocOk : Bool) : Lhash P :=
  if lh.callbackDepth > 0 then lh
  else
    let avgChainLength := lh.numItems / lh.numBuckets
    if avgChainLength > kMaxAverageChainLength then
      let newNumBuckets := lh.numBuckets * 2 % sizeMod
      if newNumBuckets > lh.numBuckets then lh.lhRebucket newNumBuckets allocOk else lh
    else if avgChainLength < kMinAverageChainLength ∧ lh.numBuckets > kMinNumBuckets then
      let newNumBuckets := lh.numBuckets / 2
      lh.lhRebucket (if newNumBuckets < kMinNumBuckets then kMinNumBuckets else newNumBuckets)
        allocOk
    else lh

def lhInsert (data : P) (itemOk allocOk : Bool) : Lhash P × Bool × Option P :=
  let (nextPtr, dataHash) := lh.getNextPtrAndHash hash cmp data
  match lh.load nextPtr with
  | some item =>
    (lh.store nextPtr ({ item with data } :: lh.next nextPtr), true, some item.data)
  | none =>
    if itemOk = false then (lh, false, none)
    else
      let lh := lh.store nextPtr [⟨data, dataHash⟩]
      (lhMaybeResize { lh with numItems := lh.numItems + 1 } allocOk, true, none)

def lhDelete (data : P) (allocOk : Bool) : Lhash P × Option P :=
  let nextPtr := (lh.getNextPtrAndHash hash cmp data).1
  match lh.load nextPtr with
  | none => (lh, none)
  | some item =>
    let lh := lh.store nextPtr (lh.next nextPtr)
    (lhMaybeResize { lh with numItems := lh.numItems - 1 } allocOk, some item.data)

/-- A function called by `OPENSSL_lh_doall_arg`.  It may retrieve elements; it gives the new state
of its argument, and whether it deletes the element it is called for. -/
abbrev Callback (P A : Type) := (P → Option P) → A → P → A × Bool

section Doall

variable (func : Callback P A) (allocOk : Bool)

/-- The inner loop, for the items `cur` and after.  `next` is read before the call, which takes at
most `cur` out of the chain.  Given are the table, the argument and the elements visited. -/
def doallChain : List (LhashItem P) → Lhash P → A → Lhash P × A × List P
  | [], lh, arg => (lh, arg, [])
  | cur :: next, lh, arg =>
    let (arg, deletes) := func (lh.lhRetrieve hash cmp) arg cur.data
    let lh := if deletes then (lh.lhDelete hash cmp cur.data allocOk).1 else lh
    let (lh, arg, visited) := doallChain next lh arg
    (lh, arg, cur.data :: visited)

def doallBuckets : ℕ → ℕ → Lhash P → A → Lhash P × A × List P
  | 0, _, lh, arg => (lh, arg, [])
  | todo + 1, i, lh, arg =>
    let (lh, arg, visited) := doallChain hash cmp func allocOk (lh.chain i) lh arg
    let (lh, arg, visited') := doallBuckets todo (i + 1) lh arg
    (lh, arg, visited ++ visited')

def lhDoallArg (arg : A) : Lhash P × A × List P :=
  let lh := if lh.callbackDepth < uintMax
    then { lh with callbackDepth := lh.callbackDepth + 1 } else lh
  let (lh, arg, visited) := doallBuckets hash cmp func allocOk lh.numBuckets 0 lh arg
  let lh := if lh.callbackDepth < uintMax
    then { lh with callbackDepth := lh.callbackDepth - 1 } else lh
  (lh.lhMaybeResize allocOk, arg, visited)

end Doall

/-- A call.  `itemOk` and `allocOk` say whether the allocations of an item and of a new array would
succeed. -/
inductive Op (P A : Type)
  | insert (data : P) (itemOk allocOk : Bool)
  | delete (data : P) (allocOk : Bool)
  | retrieve (data : P)
  | retrieveKey (keyHash : UInt32) (cmpKey : P → ℤ)
  | doallArg (func : Callback P A) (arg : A) (allocOk : Bool)

/-- What a call gives back. -/
inductive Outcome (P A : Type)
  | inserted (ok : Bool) (oldData : Option P)
  | deleted (data : Option P)
  | retrieved (data : Option P)
  | visited (arg : A) (elements : List P)
  deriving DecidableEq

def apply : Op P A → Lhash P × Outcome P A
  | .insert data itemOk allocOk =>
    let (lh, ok, oldData) := lh.lhInsert hash cmp data itemOk allocOk
    (lh, .inserted ok oldData)
  | .delete data allocOk =>
    let (lh, data) := lh.lhDelete hash cmp data allocOk
    (lh, .deleted data)
  | .retrieve data => (lh, .retrieved (lh.lhRetrieve hash cmp data))
  | .retrieveKey keyHash cmpKey => (lh, .retrieved (lh.lhRetrieveKey keyHash cmpKey))
  | .doallArg func arg allocOk =>
    let (lh, arg, elements) := lh.lhDoallArg hash cmp func allocOk arg
    (lh, .visited arg elements)

def run : List (Op P A) → Lhash P → Lhash P × List (Outcome P A)
  | [], lh => (lh, [])
  | op :: ops, lh =>
    let (lh, out) := lh.apply hash cmp op
    let (lh, outs) := run ops lh
    (lh, out :: outs)

def items : List (LhashItem P) := lh.buckets.toList.flatten

def elements : List P := lh.items.map (·.data)

section Map

variable {S : Setoid P} [DecidableRel S]

/-- The elements are visited in the order of a list, and some of them are taken out. -/
def visit (func : Callback P A) : List P → Keyed S → A → Keyed S × A
  | [], m, arg => (m, arg)
  | v :: l, m, arg =>
    let (arg, deletes) := func m.get arg v
    visit func l (if deletes then m.erase v else m) arg

/-- A call on the map a table stands for.  A key finds an element it compares equal to; it misses
none that has its hash. -/
inductive MapStep (m : Keyed S) : Op P A → Outcome P A → Keyed S → Prop
  | insert {data : P} {itemOk allocOk : Bool} (h : m.get data = none → itemOk = true) :
    MapStep m (.insert data itemOk allocOk) (.inserted true (m.get data)) (m.insert data)
  | insertFails {data : P} {allocOk : Bool} (h : m.get data = none) :
    MapStep m (.insert data false allocOk) (.inserted false none) m
  | delete {data : P} {allocOk : Bool} :
    MapStep m (.delete data allocOk) (.deleted (m.get data)) (m.erase data)
  | retrieve {data : P} : MapStep m (.retrieve data) (.retrieved (m.get data)) m
  | keyFound {keyHash : UInt32} {cmpKey : P → ℤ} {v : P} (hv : v ∈ m.stored) (hkey : cmpKey v = 0) :
    MapStep m (.retrieveKey keyHash cmpKey) (.retrieved (some v)) m
  | keyMissing {keyHash : UInt32} {cmpKey : P → ℤ}
    (h : ∀ v ∈ m.stored, hash v = keyHash → cmpKey v ≠ 0) :
    MapStep m (.retrieveKey keyHash cmpKey) (.retrieved none) m
  | doallArg {func : Callback P A} {arg : A} {allocOk : Bool} {l : List P} (hl : m.Lists l) :
    MapStep m (.doallArg func arg allocOk) (.visited (visit func l m arg).2 l)
      (visit func l m arg).1

/-- A run of calls on a map. -/
inductive MapRun : Keyed S → List (Op P A) → List (Outcome P A) → Keyed S → Prop
  | nil {m : Keyed S} : MapRun m [] [] m
  | cons {m m' m'' : Keyed S} {op : Op P A} {ops : List (Op P A)} {out : Outcome P A}
    {outs : List (Outcome P A)} (hstep : MapStep hash m op out m') (h : MapRun m' ops outs m'') :
    MapRun m (op :: ops) (out :: outs) m''

end Map

end Lhash

end BoringSSL
