import BoringSSL.Cbb
import BoringSSL.Lib.Heap

/-!
# `crypto/stack/stack.cc`

A pointer is a value of any type `P` with a null pointer, and a comparison function is known by its
own pointer, of type `C`; `cmp` is what a call of it returns (`call_cmp_func`).  `data` holds the
first `num` pointers of the array, so `num` is its size.

`Stack.Reachable` are the stacks that a run of the calls can leave behind; an allocation may fail in
any of them.
-/

namespace BoringSSL

/-- `stack_st`: pointers, maybe sorted. -/
structure Stack (P C : Type) where
  data : Array P
  sorted : Bool
  numAlloc : ℕ
  comp : Option C
  deriving DecidableEq, Repr

variable {P C : Type} [DecidableEq P] [DecidableEq C] (null : P) (cmp : C → P → P → ℤ)

namespace Stack

variable (sk : Stack P C)

def num : ℕ := sk.data.size

def kMinSize : ℕ := 4

def intMax : ℕ := 2 ^ 31 - 1

def skNew (comp : Option C) : Stack P C := ⟨#[], false, kMinSize, comp⟩

def skZero : Stack P C :=
  if sk.num = 0 then sk
  else { sk with
    data := #[]
    sorted := false }

def skSet (i : ℕ) (value : P) : Stack P C × P :=
  if i ≥ sk.num then (sk, null) else ({ sk with data := sk.data.setIfInBounds i value }, value)

/-- The number of pointers a grown array has room for, if it can be had. -/
def grownAlloc (numAlloc num : ℕ) (reallocOk : Bool) : Option ℕ :=
  if numAlloc ≤ num + 1 then
    let overflows (newAlloc : ℕ) : Bool :=
      newAlloc < numAlloc || newAlloc * 8 % sizeMod / 8 != newAlloc
    let newAlloc := numAlloc * 2 % sizeMod
    let newAlloc := if overflows newAlloc then (numAlloc + 1) % sizeMod else newAlloc
    if overflows newAlloc || !reallocOk then none else some newAlloc
  else some numAlloc

def skInsert (p : P) (place : ℕ) (reallocOk : Bool) : Stack P C × ℕ :=
  if sk.num ≥ intMax then (sk, 0)
  else match grownAlloc sk.numAlloc sk.num reallocOk with
    | none => (sk, 0)
    | some numAlloc =>
      let data := if place ≥ sk.num then sk.data.push p
        else (sk.data.extract 0 place).push p ++ sk.data.extract place sk.num
      (⟨data, false, numAlloc, sk.comp⟩, sk.num + 1)

def skPush (p : P) (reallocOk : Bool) : Stack P C × ℕ := sk.skInsert p sk.num reallocOk

def skDelete (place : ℕ) : Stack P C × P :=
  if place ≥ sk.num then (sk, null)
  else ({ sk with data := sk.data.eraseIdxIfInBounds place }, sk.data.getD place null)

/-- `OPENSSL_sk_delete_ptr`: the first place with the pointer, if any, is deleted. -/
def skDeletePtr (p : P) : Stack P C × P :=
  match (List.range sk.num).find? fun i => sk.data.getD i null = p with
  | some i => sk.skDelete null i
  | none => (sk, null)

def skShift : Stack P C × P := if sk.num = 0 then (sk, null) else sk.skDelete null 0

def skPop : Stack P C × P := if sk.num = 0 then (sk, null) else sk.skDelete null (sk.num - 1)

/-- The loop of `OPENSSL_sk_delete_if` over the pointers from place `i` on, with those it has kept;
`call i p` is whether the `i`-th call of the function, on `p`, asks to delete. -/
def deleteIfLoop (call : ℕ → P → Bool) : ℕ → List P → Array P → Array P
  | _, [], kept => kept
  | i, p :: rest, kept => deleteIfLoop call (i + 1) rest (if !call i p then kept.push p else kept)

def skDeleteIf (call : ℕ → P → Bool) : Stack P C :=
  { sk with data := deleteIfLoop call 0 sk.data.toList #[] }

def skDup : Stack P C := ⟨sk.data, sk.sorted, sk.numAlloc, sk.comp⟩

def skIsSorted : Bool := sk.sorted || (sk.comp.isSome && sk.num < 2)

def skSetCmpFunc (comp : Option C) : Stack P C × Option C :=
  ({ sk with
    sorted := if sk.comp ≠ comp then false else sk.sorted
    comp := comp }, sk.comp)

def leftIdx (idx : ℕ) : ℕ := 2 * idx + 1
def parentIdx (idx : ℕ) : ℕ := (idx - 1) / 2

variable (call : P → P → ℤ)

/-- `next`: the place of the largest of the element at `i`, which has a left child, and its
children. -/
def nextIdx (num : ℕ) (data : Array P) (i : ℕ) : ℕ :=
  let left := leftIdx i
  let next := if call (data.getD i null) (data.getD left null) < 0 then left else i
  let right := left + 1
  if right < num ∧ call (data.getD next null) (data.getD right null) < 0 then right else next

/-- `down_heap`; each round goes down to a larger place, so `num` rounds are enough. -/
def downHeap (call : P → P → ℤ) (num : ℕ) : ℕ → Array P → ℕ → Array P
  | 0, data, _ => data
  | fuel + 1, data, i =>
    if leftIdx i ≥ num then data
    else
      let next := nextIdx null call num data i
      if i = next then data
      else downHeap call num fuel (data.swapIfInBounds i next) next

/-- The loop that builds the heap, from place `i` down to the first. -/
def buildHeap (call : P → P → ℤ) (num : ℕ) : ℕ → Array P → Array P
  | 0, data => downHeap null call num num data 0
  | i + 1, data => buildHeap call num i (downHeap null call num num data (i + 1))

/-- The loop that takes the largest element out of the heap, from place `i` down to the second. -/
def takeHeap (call : P → P → ℤ) : ℕ → Array P → Array P
  | 0, data => data
  | i + 1, data =>
    takeHeap call i (downHeap null call (i + 1) (i + 1) (data.swapIfInBounds 0 (i + 1)) 0)

variable (data : Array P)

def heapSort : Array P :=
  if data.size ≥ 2 then
    takeHeap null call (data.size - 1)
      (buildHeap null call data.size (parentIdx (data.size - 1)) data)
  else data

def skSort : Stack P C :=
  match sk.comp with
  | none => sk
  | some c =>
    if sk.sorted then sk
    else { sk with
      data := heapSort null (cmp c) sk.data
      sorted := true }

/-! The same sort with `size_t` counters and each access to the array checked: `none` is an access
outside it, or a loop that goes on for more rounds than given. -/

def swapChecked (i j : ℕ) : Option (Array P) := do
  let tmp ← data[i]?
  let value ← data[j]?
  some ((data.setIfInBounds i value).setIfInBounds j tmp)

def lessChecked (i j : ℕ) : Option Bool := do
  let a ← data[i]?
  let b ← data[j]?
  some (decide (call a b < 0))

def nextIdxChecked (num : ℕ) (data : Array P) (i left : ℕ) : Option ℕ :=
  (lessChecked call data i left).bind fun less =>
  let next := if less then left else i
  let right := (left + 1) % sizeMod
  if right < num then
    (lessChecked call data next right).map fun less => if less then right else next
  else some next

def downHeapChecked (call : P → P → ℤ) (num : ℕ) : ℕ → Array P → ℕ → Option (Array P)
  | 0, _, _ => none
  | rounds + 1, data, i =>
    let left := (2 * i + 1) % sizeMod
    if left ≥ num then some data
    else
      (nextIdxChecked call num data i left).bind fun next =>
      if i = next then some data
      else (swapChecked data i next).bind fun data => downHeapChecked call num rounds data next

/-- `for (i = ...; i < num; i--)`, which ends when `i` wraps around. -/
def buildHeapChecked (call : P → P → ℤ) (num : ℕ) : ℕ → ℕ → Array P → Option (Array P)
  | 0, _, _ => none
  | rounds + 1, i, data =>
    if i < num then
      (downHeapChecked call num num data i).bind
        (buildHeapChecked call num rounds ((i + sizeMod - 1) % sizeMod))
    else some data

def takeHeapChecked (call : P → P → ℤ) : ℕ → ℕ → Array P → Option (Array P)
  | 0, _, _ => none
  | rounds + 1, i, data =>
    if i > 0 then
      (swapChecked data 0 i).bind fun data =>
      (downHeapChecked call i i data 0).bind (takeHeapChecked call rounds (i - 1))
    else some data

def heapSortChecked : Option (Array P) :=
  if data.size ≥ 2 then
    (buildHeapChecked call data.size (data.size + 1) (parentIdx (data.size - 1)) data).bind
      (takeHeapChecked call data.size (data.size - 1))
  else some data

def skSortChecked : Option (Stack P C) :=
  match sk.comp with
  | none => some sk
  | some c =>
    if sk.sorted then some sk
    else (heapSortChecked (cmp c) sk.data).map fun data => { sk with
      data := data
      sorted := true }

/-- The binary search, on the places from `lo` up to `hi`, which get fewer in each round; `call i`
is the comparison of the needle with the `i`-th element. -/
def findSorted (call : ℕ → ℤ) : ℕ → ℕ → ℕ → Option ℕ
  | 0, _, _ => none
  | fuel + 1, lo, hi =>
    if lo < hi then
      let mid := lo + (hi - lo - 1) / 2
      let r := call mid
      if r > 0 then findSorted call fuel (mid + 1) hi
      else if r < 0 then findSorted call fuel lo mid
      -- The earliest match is wanted, so the range must be down to one place.
      else if hi - lo = 1 then some mid
      else findSorted call fuel lo (mid + 1)
    else none

def skFind (p : P) : Option ℕ :=
  match sk.comp with
  | none => (List.range sk.num).find? fun i => sk.data.getD i null = p
  | some c =>
    if p = null then none
    else if !sk.skIsSorted then
      (List.range sk.num).find? fun i => cmp c p (sk.data.getD i null) = 0
    else findSorted (fun i => cmp c p (sk.data.getD i null)) (sk.num + 1) 0 sk.num

/-- The calls that change a stack, or make another from it. -/
inductive Op (P C : Type)
  | insert (p : P) (place : ℕ) (reallocOk : Bool)
  | push (p : P) (reallocOk : Bool)
  | pop
  | shift
  | delete (place : ℕ)
  | deletePtr (p : P)
  | deleteIf (call : ℕ → P → Bool)
  | set (i : ℕ) (value : P)
  | zero
  | sort
  | setCmpFunc (comp : Option C)
  | dup

def apply : Op P C → Stack P C
  | .insert p place reallocOk => (sk.skInsert p place reallocOk).1
  | .push p reallocOk => (sk.skPush p reallocOk).1
  | .pop => (sk.skPop null).1
  | .shift => (sk.skShift null).1
  | .delete place => (sk.skDelete null place).1
  | .deletePtr p => (sk.skDeletePtr null p).1
  | .deleteIf call => sk.skDeleteIf call
  | .set i value => (sk.skSet null i value).1
  | .zero => sk.skZero
  | .sort => sk.skSort null cmp
  | .setCmpFunc comp => (sk.skSetCmpFunc comp).1
  | .dup => sk.skDup

/-- The stacks that runs of calls allowed by `may` lead to. -/
inductive Reachable (may : Stack P C → Op P C → Prop) : Stack P C → Prop
  | new (comp : Option C) : Reachable may (skNew comp)
  | step {sk : Stack P C} {op : Op P C} (h : Reachable may sk) (hmay : may sk op) :
    Reachable may (sk.apply null cmp op)

/-- The elements ascend. -/
def Ascending : Prop :=
  data.toList.Pairwise fun a b => call a b ≤ 0

end Stack

/-- A comparison function orders the pointers, up to those it does not tell apart. -/
structure IsOrder (call : P → P → ℤ) : Prop where
  flip : ∀ a b, call a b ≤ 0 ↔ 0 ≤ call b a
  trans : ∀ a b c, call a b ≤ 0 → call b c ≤ 0 → call a c ≤ 0

/-- A call other than `OPENSSL_sk_set`, or one that leaves a stack flagged as sorted in order. -/
def KeepsOrder (sk : Stack P C) : Stack.Op P C → Prop
  | .set i value => sk.sorted = true → ∀ c, sk.comp = some c → IsOrder (cmp c) →
    Stack.Ascending (cmp c) (sk.skSet null i value).1.data
  | _ => True

end BoringSSL
