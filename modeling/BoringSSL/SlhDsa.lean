import BoringSSL.Lib.Bytes
import BoringSSL.Lib.Returns

/-!
# SLH-DSA-SHA2-128s

Key generation, signing and verification of `crypto/fipsmodule/slhdsa`.  All hashing is done under a
32-byte address which the functions share and write to as they go; it is the state of the programs
here, and a `BSSL_CHECK` or an `assert` that does not hold aborts them.
-/

namespace BoringSSL.SlhDsa

open ByteLib (Bytes beBytes beNat check)

def n : ℕ := 16
def d : ℕ := 7
def treeHeight : ℕ := 9
def forsHeight : ℕ := 12
def forsTrees : ℕ := 14
def forsBytes : ℕ := (forsHeight + 1) * forsTrees * n
def wotsW : ℕ := 16
def wotsLen : ℕ := 35
def wotsBytes : ℕ := n * wotsLen
def xmssBytes : ℕ := wotsBytes + n * treeHeight
def digestSize : ℕ := 30
def forsMsgBytes : ℕ := (forsHeight * forsTrees + 7) / 8
def treeBits : ℕ := treeHeight * (d - 1)
def treeBytes : ℕ := (treeBits + 7) / 8
def leafBits : ℕ := treeHeight
def signatureBytes : ℕ := 7856

/-- The bytes of an address, by the fields that start at them.  Byte 17 is the chain of a WOTS+
address and the height in a tree, and byte 21 is both the hash address and the last byte of the
tree index.  Bytes 22 to 31 are never written and never hashed. -/
structure Addr where
  layer : UInt8
  tree : ℕ
  type : UInt8
  b10 : UInt8
  b11 : UInt8
  kpAddr2 : UInt8
  kpAddr1 : UInt8
  b14 : UInt8
  b15 : UInt8
  b16 : UInt8
  b17 : UInt8
  b18 : UInt8
  b19 : UInt8
  b20 : UInt8
  b21 : UInt8
  deriving DecidableEq, Repr

namespace Addr

def zero : Addr := ⟨0, 0, 0, 0, 0, 0, 0, 0, 0, 0, 0, 0, 0, 0, 0⟩

def bytes (a : Addr) : Bytes :=
  [a.layer] ++ beBytes 8 a.tree ++ [a.type, a.b10, a.b11, a.kpAddr2, a.kpAddr1, a.b14, a.b15, a.b16,
    a.b17, a.b18, a.b19, a.b20, a.b21]

def setChainAddr (chain : ℕ) (a : Addr) : Addr := { a with b17 := UInt8.ofNat chain }

def setHashAddr (hash : ℕ) (a : Addr) : Addr := { a with b21 := UInt8.ofNat hash }

def setKeypairAddr (keypair : ℕ) (a : Addr) : Addr :=
  { a with
    kpAddr2 := UInt8.ofNat (keypair >>> 8)
    kpAddr1 := UInt8.ofNat keypair }

def copyKeypairAddr (out a : Addr) : Addr :=
  { out with
    layer := a.layer
    tree := a.tree
    kpAddr2 := a.kpAddr2
    kpAddr1 := a.kpAddr1 }

def setLayerAddr (layer : ℕ) (a : Addr) : Addr := { a with layer := UInt8.ofNat layer }

def setTreeAddr (tree : ℕ) (a : Addr) : Addr := { a with tree := tree % 2 ^ 64 }

/-- `OPENSSL_memset(addr + 10, 0, 12)` comes with it. -/
def setType (type : UInt8) (a : Addr) : Addr := { zero with layer := a.layer, tree := a.tree, type }

def setTreeHeight (height : ℕ) (a : Addr) : Addr := { a with b17 := UInt8.ofNat height }

def setTreeIndex (index : ℕ) (a : Addr) : Addr :=
  { a with
    b18 := UInt8.ofNat (index / 2 ^ 24)
    b19 := UInt8.ofNat (index / 2 ^ 16)
    b20 := UInt8.ofNat (index / 2 ^ 8)
    b21 := UInt8.ofNat index }

def getTreeIndex (a : Addr) : ℕ := beNat [a.b18, a.b19, a.b20, a.b21]

end Addr

def addrTypeWots : UInt8 := 0
def addrTypeWotspk : UInt8 := 1
def addrTypeHashtree : UInt8 := 2
def addrTypeForstree : UInt8 := 3
def addrTypeForspk : UInt8 := 4
def addrTypeWotsprf : UInt8 := 5
def addrTypeForsprf : UInt8 := 6

/-- The tweakable hash functions: any functions of their input, the public seed and the 22 bytes of
the address with results of the right length.  A header may be absent. -/
structure Thash where
  f (input pkSeed addr : Bytes) : Bytes
  h (input pkSeed addr : Bytes) : Bytes
  tl (input pkSeed addr : Bytes) : Bytes
  tk (input pkSeed addr : Bytes) : Bytes
  prf (pkSeed skSeed addr : Bytes) : Bytes
  prfmsg (skPrf entropy : Bytes) (header : Option Bytes) (ctx msg : Bytes) : Bytes
  hmsg (r pkSeed pkRoot : Bytes) (header : Option Bytes) (ctx msg : Bytes) : Bytes
  f_length : ∀ input pkSeed addr, (f input pkSeed addr).length = n
  h_length : ∀ input pkSeed addr, (h input pkSeed addr).length = n
  tl_length : ∀ input pkSeed addr, (tl input pkSeed addr).length = n
  tk_length : ∀ input pkSeed addr, (tk input pkSeed addr).length = n
  prf_length : ∀ pkSeed skSeed addr, (prf pkSeed skSeed addr).length = n
  prfmsg_length : ∀ skPrf entropy header ctx msg, (prfmsg skPrf entropy header ctx msg).length = n
  hmsg_length : ∀ r pkSeed pkRoot header ctx msg,
    (hmsg r pkSeed pkRoot header ctx msg).length = digestSize

/-- A program that works on an address and may abort. -/
abbrev Hashing := StateT Addr Option

def block (s : Bytes) (i : ℕ) : Bytes := (s.drop (i * n)).take n

variable (H : Thash)

/-- The calls that hash under the address as it stands. -/
def thashF (input pkSeed : Bytes) : Hashing Bytes := do
  return H.f input pkSeed (← get).bytes

def thashH (input pkSeed : Bytes) : Hashing Bytes := do
  return H.h input pkSeed (← get).bytes

def chain (input : Bytes) (start steps : ℕ) (pubSeed : Bytes) : Hashing Bytes := do
  check (start < wotsW)
  check (steps < wotsW)
  (List.range' start (min (start + steps) wotsW - start)).foldlM (fun output i => do
    modify (Addr.setHashAddr i)
    thashF H output pubSeed) input

/-- Returns the new `sk_addr` with the end of the chain. -/
def wotsDoChain (skAddr : Addr) (value : ℕ) (skSeed pubSeed : Bytes) (chainIndex : ℕ) :
    Hashing (Bytes × Addr) := do
  let skAddr := skAddr.setChainAddr chainIndex
  let tmpSk := H.prf pubSeed skSeed skAddr.bytes
  modify (Addr.setChainAddr chainIndex)
  let out ← chain H tmpSk 0 value pubSeed
  return (out, skAddr)

/-- The calls of `slhdsa_wots_do_chain` for one value after the other, from `chain_index` on. -/
def wotsDoChains (skSeed pubSeed : Bytes) : Addr → ℕ → List ℕ → Hashing Bytes
  | _, _, [] => return []
  | skAddr, chainIndex, value :: values => do
    let (out, skAddr) ← wotsDoChain H skAddr value skSeed pubSeed chainIndex
    let rest ← wotsDoChains skSeed pubSeed skAddr (chainIndex + 1) values
    return out ++ rest

def wotsSkAddr (addr : Addr) : Addr := (addr.setType addrTypeWotsprf).copyKeypairAddr addr

def wotsPkGen (skSeed pubSeed : Bytes) : Hashing Bytes := do
  let wotsPkAddr ← get
  let skAddr := wotsSkAddr wotsPkAddr
  let tmp ← wotsDoChains H skSeed pubSeed skAddr 0 (List.replicate wotsLen (wotsW - 1))
  let wotsPkAddr := (wotsPkAddr.setType addrTypeWotspk).copyKeypairAddr (← get)
  return H.tl tmp pubSeed wotsPkAddr.bytes

/-- The checksum, a `uint16_t`. -/
def csum (msg : Bytes) : ℕ :=
  msg.foldl (fun csum b =>
    (csum + (wotsW - 1 - (b.toNat >>> 4)) + (wotsW - 1 - (b.toNat &&& 15))) % 2 ^ 16) 0

def nibbles (msg : Bytes) : List ℕ := msg.flatMap fun b => [b.toNat >>> 4, b.toNat &&& 15]

def wotsSign (msg skSeed pubSeed : Bytes) : Hashing Bytes := do
  let csum := csum msg
  let skAddr := wotsSkAddr (← get)
  wotsDoChains H skSeed pubSeed skAddr 0
    (nibbles msg ++ [(csum >>> 8) &&& 15, (csum >>> 4) &&& 15, csum &&& 15])

def wotsPkFromSigDoChain (sig : Bytes) (value : ℕ) (pubSeed : Bytes) (chainIndex : ℕ) :
    Hashing Bytes := do
  modify (Addr.setChainAddr chainIndex)
  chain H (block sig chainIndex) value (wotsW - 1 - value) pubSeed

def wotsPkFromSigDoChains (sig pubSeed : Bytes) : ℕ → List ℕ → Hashing Bytes
  | _, [] => return []
  | chainIndex, value :: values => do
    let out ← wotsPkFromSigDoChain H sig value pubSeed chainIndex
    let rest ← wotsPkFromSigDoChains sig pubSeed (chainIndex + 1) values
    return out ++ rest

/-- The first checksum digit is not masked here, only cut down to the `uint8_t` it is passed as. -/
def wotsPkFromSig (sig msg pubSeed : Bytes) : Hashing Bytes := do
  let csum := csum msg
  let wotsPkAddr ← get
  let tmp ← wotsPkFromSigDoChains H sig pubSeed 0
    (nibbles msg ++ [(csum >>> 8) % 2 ^ 8, (csum >>> 4) &&& 15, csum &&& 15])
  let wotsPkAddr := (wotsPkAddr.setType addrTypeWotspk).copyKeypairAddr (← get)
  return H.tl tmp pubSeed wotsPkAddr.bytes

def treehash (skSeed pkSeed : Bytes) : (z i : ℕ) → Hashing Bytes
  | 0, i => do
    check (i < 2 ^ treeHeight)
    modify (Addr.setType addrTypeWots)
    modify (Addr.setKeypairAddr i)
    wotsPkGen H skSeed pkSeed
  | z + 1, i => do
    check (z + 1 ≤ treeHeight)
    check (i < 2 ^ (treeHeight - (z + 1)))
    let left ← treehash skSeed pkSeed z (2 * i)
    let right ← treehash skSeed pkSeed z (2 * i + 1)
    modify (Addr.setType addrTypeHashtree)
    modify (Addr.setTreeHeight (z + 1))
    modify (Addr.setTreeIndex i)
    thashH H (left ++ right) pkSeed

def xmssSign (msg : Bytes) (idx : ℕ) (skSeed pkSeed : Bytes) : Hashing Bytes := do
  let auth ← (List.range treeHeight).mapM fun j => treehash H skSeed pkSeed j ((idx >>> j) ^^^ 1)
  modify (Addr.setType addrTypeWots)
  modify (Addr.setKeypairAddr idx)
  let sig ← wotsSign H msg skSeed pkSeed
  return sig ++ auth.flatten

/-- One level of the climb: the index in the address is halved, and the node and its sibling are
hashed in their order.  Subtracting one from the index wraps round at 32 bits. -/
def climbLevel (odd : Bool) (sibling pkSeed node : Bytes) (level : ℕ) : Hashing Bytes := do
  modify (Addr.setTreeHeight (level + 1))
  if odd = false then
    modify fun addr => addr.setTreeIndex (addr.getTreeIndex / 2)
    thashH H (node ++ sibling) pkSeed
  else
    modify fun addr => addr.setTreeIndex ((addr.getTreeIndex + (2 ^ 32 - 1)) % 2 ^ 32 / 2)
    thashH H (sibling ++ node) pkSeed

def xmssPkFromSig (xmssSig : Bytes) (idx : ℕ) (msg pkSeed : Bytes) : Hashing Bytes := do
  modify (Addr.setType addrTypeWots)
  modify (Addr.setKeypairAddr idx)
  let node ← wotsPkFromSig H xmssSig msg pkSeed
  modify (Addr.setType addrTypeHashtree)
  modify (Addr.setTreeIndex idx)
  let auth := xmssSig.drop wotsBytes
  (List.range treeHeight).foldlM (fun node k =>
    climbLevel H (decide ((idx >>> k) &&& 1 ≠ 0)) (block auth k) pkSeed node k) node

/-- The layers `j` of the loop of `slhdsa_ht_sign`.  The root of the last layer is not computed. -/
def htSignLayers (skSeed pkSeed : Bytes) : List ℕ → Bytes → ℕ → Hashing Bytes
  | [], _, _ => return []
  | j :: js, root, idxTree => do
    let idxLeaf := idxTree % 2 ^ treeHeight
    let idxTree := idxTree >>> treeHeight
    modify (Addr.setLayerAddr j)
    modify (Addr.setTreeAddr idxTree)
    let sig ← xmssSign H root idxLeaf skSeed pkSeed
    let root ← if j < d - 1 then xmssPkFromSig H sig idxLeaf root pkSeed else pure root
    let rest ← htSignLayers skSeed pkSeed js root idxTree
    return sig ++ rest

def upperLayers : List ℕ := List.range' 1 (d - 1)

def htSign (message : Bytes) (idxTree idxLeaf : ℕ) (skSeed pkSeed : Bytes) : Option Bytes :=
  StateT.run' (s := Addr.zero) do
    modify (Addr.setTreeAddr idxTree)
    let sig ← xmssSign H message idxLeaf skSeed pkSeed
    let root ← xmssPkFromSig H sig idxLeaf message pkSeed
    let rest ← htSignLayers H skSeed pkSeed upperLayers root idxTree
    return sig ++ rest

def htVerifyLayers (sig pkSeed : Bytes) : List ℕ → Bytes → ℕ → Hashing Bytes
  | [], node, _ => return node
  | j :: js, node, idxTree => do
    let idxLeaf := idxTree % 2 ^ treeHeight
    let idxTree := idxTree >>> treeHeight
    modify (Addr.setLayerAddr j)
    modify (Addr.setTreeAddr idxTree)
    let node ← xmssPkFromSig H (sig.drop (j * xmssBytes)) idxLeaf node pkSeed
    htVerifyLayers sig pkSeed js node idxTree

def htVerify (sig message : Bytes) (idxTree idxLeaf : ℕ) (pkRoot pkSeed : Bytes) : Option Bool :=
  StateT.run' (s := Addr.zero) do
    modify (Addr.setTreeAddr idxTree)
    let node ← xmssPkFromSig H sig idxLeaf message pkSeed
    let node ← htVerifyLayers H sig pkSeed upperLayers node idxTree
    return node == pkRoot

def forsBaseB (message : Bytes) : List ℕ :=
  (List.range (forsTrees / 2)).flatMap fun i =>
    let val := beNat ((message.drop (3 * i)).take 3)
    [(val >>> 12) &&& 0xFFF, val &&& 0xFFF]

def forsSkGen (idx : ℕ) (skSeed pkSeed : Bytes) : Hashing Bytes := do
  let addr ← get
  let skAddr := (addr.setType addrTypeForsprf).copyKeypairAddr addr
  return H.prf pkSeed skSeed (skAddr.setTreeIndex idx).bytes

def forsTreehash (skSeed pkSeed : Bytes) : (z i : ℕ) → Hashing Bytes
  | 0, i => do
    check (i < forsTrees * 2 ^ forsHeight)
    modify (Addr.setTreeHeight 0)
    modify (Addr.setTreeIndex i)
    let sk ← forsSkGen H i skSeed pkSeed
    thashF H sk pkSeed
  | z + 1, i => do
    check (z + 1 ≤ forsHeight)
    check (i < forsTrees * 2 ^ (forsHeight - (z + 1)))
    let left ← forsTreehash skSeed pkSeed z (2 * i)
    let right ← forsTreehash skSeed pkSeed z (2 * i + 1)
    modify (Addr.setTreeHeight (z + 1))
    modify (Addr.setTreeIndex i)
    thashH H (left ++ right) pkSeed

/-- The secret value of tree `i` at `index` and its authentication path. -/
def forsSignTree (skSeed pkSeed : Bytes) (i index : ℕ) : Hashing Bytes := do
  modify (Addr.setTreeHeight 0)
  let sk ← forsSkGen H (i * 2 ^ forsHeight + index) skSeed pkSeed
  let auth ← (List.range forsHeight).mapM fun j =>
    forsTreehash H skSeed pkSeed j (i * 2 ^ (forsHeight - j) + ((index / 2 ^ j) ^^^ 1))
  return sk ++ auth.flatten

def forsSign (message skSeed pkSeed : Bytes) : Hashing Bytes := do
  let indices := forsBaseB message
  let sigs ← (List.range forsTrees).mapM fun i =>
    forsSignTree H skSeed pkSeed i (indices.getD i 0)
  return sigs.flatten

def forsRoot (forsSig pkSeed : Bytes) (i index : ℕ) : Hashing Bytes := do
  let sk := block forsSig (i * (forsHeight + 1))
  let auth := forsSig.drop (i * n * (forsHeight + 1) + n)
  modify (Addr.setTreeHeight 0)
  modify (Addr.setTreeIndex (i * 2 ^ forsHeight + index))
  let node ← thashF H sk pkSeed
  (List.range forsHeight).foldlM (fun node j =>
    climbLevel H (decide (index / 2 ^ j % 2 ≠ 0)) (block auth j) pkSeed node j) node

def forsPkFromSig (forsSig message pkSeed : Bytes) : Hashing Bytes := do
  let indices := forsBaseB message
  let roots ← (List.range forsTrees).mapM fun i => forsRoot H forsSig pkSeed i (indices.getD i 0)
  let addr ← get
  let forspkAddr := (addr.setType addrTypeForspk).copyKeypairAddr addr
  return H.tk roots.flatten pkSeed forspkAddr.bytes

/-- `bcm_status`. -/
inductive Status where
  | approved | failure
  deriving DecidableEq, Repr

def generateKeyFromSeed (seed : Bytes) : Option (Bytes × Bytes) := do
  let skSeed := seed.take n
  let pkSeed := (seed.drop (2 * n)).take n
  let root ← (treehash H skSeed pkSeed treeHeight 0).run' (Addr.zero.setLayerAddr (d - 1))
  return (pkSeed ++ root, seed.take (3 * n) ++ root)

/-- `in` has eight bytes; the last is dropped. -/
def loadTreeIndex (input : Bytes) : ℕ := (beNat (input.take 8) >>> 8) % 2 ^ treeBits

def loadLeafIndex (input : Bytes) : ℕ := beNat (input.take 2) % 2 ^ leafBits

/-- The address both sides start FORS with. -/
def forsAddr (idxTree idxLeaf : ℕ) : Addr :=
  ((Addr.zero.setTreeAddr idxTree).setType addrTypeForstree).setKeypairAddr idxLeaf

def signInternal (secretKey : Bytes) (header : Option Bytes) (context msg entropy : Bytes) :
    Option Bytes := do
  let skSeed := secretKey.take n
  let skPrf := (secretKey.drop n).take n
  let pkSeed := (secretKey.drop (2 * n)).take n
  let pkRoot := (secretKey.drop (3 * n)).take n
  let r := H.prfmsg skPrf entropy header context msg
  let digest := H.hmsg r pkSeed pkRoot header context msg
  let forsDigest := digest.take forsMsgBytes
  let idxTree := loadTreeIndex (digest.drop forsMsgBytes)
  let idxLeaf := loadLeafIndex (digest.drop (forsMsgBytes + treeBytes))
  let (forsSig, pkFors) ← StateT.run' (s := forsAddr idxTree idxLeaf) do
    let forsSig ← forsSign H forsDigest skSeed pkSeed
    let pkFors ← forsPkFromSig H forsSig forsDigest pkSeed
    return (forsSig, pkFors)
  let htSig ← htSign H pkFors idxTree idxLeaf skSeed pkSeed
  return r ++ forsSig ++ htSig

def verifyInternal (signature publicKey : Bytes) (header : Option Bytes) (context msg : Bytes) :
    Option Status :=
  if signature.length ≠ signatureBytes then some .failure
  else do
    let pkSeed := publicKey.take n
    let pkRoot := (publicKey.drop n).take n
    let r := signature.take n
    let sigFors := signature.drop n
    let sigHt := sigFors.drop forsBytes
    let digest := H.hmsg r pkSeed pkRoot header context msg
    let forsDigest := digest.take forsMsgBytes
    let idxTree := loadTreeIndex (digest.drop forsMsgBytes)
    let idxLeaf := loadLeafIndex (digest.drop (forsMsgBytes + treeBytes))
    let pkFors ← (forsPkFromSig H sigFors forsDigest pkSeed).run' (forsAddr idxTree idxLeaf)
    if ← htVerify H sigHt pkFors idxTree idxLeaf pkRoot pkSeed then some .approved
    else some .failure

end BoringSSL.SlhDsa
