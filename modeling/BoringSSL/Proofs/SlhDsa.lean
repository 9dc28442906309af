import BoringSSL.Proofs.SlhDsaTree

/-!
# An SLH-DSA signature verifies

FORS and the hypertree on top of the trees of `SlhDsaTree`: signer and verifier compute the same
FORS public key, and the roots recomputed layer by layer end at the root in the public key.
-/

namespace BoringSSL.SlhDsa

open ByteLib List

variable {type : UInt8} {v b rest sig root seed : Bytes} {j : ℕ}
  {H : Thash} {skSeed pkSeed : Bytes} {p : Place} {kp : ℕ} {msg : Bytes}

lemma forsSkGen_returns (i : ℕ) :
    Returns (Addr.Of p type kp) (forsSkGen H i skSeed pkSeed) (forsSk H skSeed pkSeed p kp i)
      (Addr.Of p type kp) := by
  refine Returns.get_bind fun a ha => ?_
  obtain ⟨_, _, _, _, _, rfl⟩ := ha
  exact Returns.pure _

lemma hashAt_returns {x : Hashing Bytes} (z i : ℕ)
    (hx : Returns (fun a => a = (p.addr type kp (UInt8.ofNat z) 0 0 0 0).setTreeIndex i) x v
      (Addr.Of p type kp)) :
    Returns (Addr.Of p type kp)
      (do modify (Addr.setTreeHeight z); modify (Addr.setTreeIndex i); x) v
      (Addr.Of p type kp) := by
  rintro a ⟨_, _, _, _, _, rfl⟩
  exact hx _ rfl

lemma forsTreehash_returns : ∀ (z i : ℕ), z ≤ forsHeight → i < forsTrees * 2 ^ (forsHeight - z) →
    Returns (Addr.Of p addrTypeForstree kp) (forsTreehash H skSeed pkSeed z i)
      (forsNode H skSeed pkSeed p kp z i) (Addr.Of p addrTypeForstree kp)
  | 0, i, _, hi => by
    refine Returns.check_bind hi (hashAt_returns 0 i ?_)
    refine Returns.get_bind fun a ha => ?_
    rw [ha]
    refine (thashF_returns fun b hb => ?_).mono (fun _ h => h) fun _ hb => ?_
    · rw [hb]
      rfl
    · exact ⟨_, _, _, _, _, hb⟩
  | z + 1, i, hz, hi => by
    have hchild : 2 * i + 1 < forsTrees * 2 ^ (forsHeight - z) := by
      rw [show forsHeight - z = forsHeight - (z + 1) + 1 by omega, pow_succ, ← mul_assoc]
      omega
    refine Returns.check_bind hz (Returns.check_bind hi ?_)
    refine (forsTreehash_returns z (2 * i) (by omega) (by omega)).bind ?_
    refine (forsTreehash_returns z (2 * i + 1) (by omega) hchild).bind (hashAt_returns (z + 1) i ?_)
    refine (thashH_returns fun b hb => ?_).mono (fun _ h => h) fun _ hb => ?_
    · rw [hb]
      rfl
    · exact ⟨_, _, _, _, _, hb⟩

/-- Leaf `index` of tree `i`, in the row of all leaves. -/
def forsIndex (i index : ℕ) : ℕ := i * 2 ^ forsHeight + index

lemma forsIndex_div (i index : ℕ) (hj : j ≤ forsHeight) :
    forsIndex i index / 2 ^ j = i * 2 ^ (forsHeight - j) + index / 2 ^ j := by
  have hpow : i * 2 ^ forsHeight = 2 ^ j * (i * 2 ^ (forsHeight - j)) := by
    rw [show 2 ^ forsHeight = 2 ^ j * 2 ^ (forsHeight - j) by rw [← pow_add, Nat.add_sub_of_le hj]]
    ring
  rw [forsIndex, hpow, Nat.mul_add_div (by positivity)]

lemma forsIndex_div_mod (i index : ℕ) (hj : j < forsHeight) :
    forsIndex i index / 2 ^ j % 2 = index / 2 ^ j % 2 := by
  rw [forsIndex_div i index hj.le, show forsHeight - j = forsHeight - (j + 1) + 1 by omega,
    pow_succ, ← mul_assoc, add_comm, Nat.add_mul_mod_self_right]

lemma forsIndex_sibling (i index : ℕ) (hj : j < forsHeight) :
    forsIndex i index / 2 ^ j ^^^ 1 = i * 2 ^ (forsHeight - j) + (index / 2 ^ j ^^^ 1) := by
  have hparity := forsIndex_div_mod i index hj
  have hdiv := forsIndex_div i index hj.le
  generalize index / 2 ^ j = x at *
  generalize forsIndex i index / 2 ^ j = y at *
  by_cases h : x % 2 = 0
  · rw [Nat.xor_one_of_even (Nat.even_iff.mpr h),
      Nat.xor_one_of_even (Nat.even_iff.mpr (hparity.trans h)), hdiv, add_assoc]
  · have h1 : x % 2 = 1 := by omega
    rw [Nat.xor_one_of_odd (Nat.odd_iff.mpr h1),
      Nat.xor_one_of_odd (Nat.odd_iff.mpr (hparity.trans h1)), hdiv]
    omega

section Fors

variable (H skSeed pkSeed p) (kp i index : ℕ)

def forsAuth : List Bytes :=
  (range forsHeight).map fun j =>
    forsNode H skSeed pkSeed p kp j (forsIndex i index / 2 ^ j ^^^ 1)

def forsTreeSig : Bytes :=
  forsSk H skSeed pkSeed p kp (forsIndex i index) ++ (forsAuth H skSeed pkSeed p kp i index).flatten

/-- The FORS signature of a key pair that opens leaf `indices i` of each tree `i`. -/
def forsSigs (indices : ℕ → ℕ) : List Bytes :=
  (range forsTrees).map fun i => forsTreeSig H skSeed pkSeed p kp i (indices i)

end Fors

variable {i index : ℕ}

lemma forsNode_length (z i : ℕ) : (forsNode H skSeed pkSeed p kp z i).length = n :=
  node_length (fun _ => H.f_length _ _ _) (fun _ _ _ _ => H.h_length _ _ _) z i

lemma length_of_mem_forsAuth (hb : b ∈ forsAuth H skSeed pkSeed p kp i index) : b.length = n := by
  obtain ⟨j, -, rfl⟩ := List.mem_map.mp hb
  exact forsNode_length _ _

lemma forsTreeSig_length :
    (forsTreeSig H skSeed pkSeed p kp i index).length = n * (forsHeight + 1) := by
  rw [forsTreeSig, length_append, flatten_length fun b hb => length_of_mem_forsAuth hb, forsSk,
    H.prf_length, forsAuth, length_map, length_range]
  ring

lemma length_of_mem_forsSigs {indices : ℕ → ℕ}
    (hb : b ∈ forsSigs H skSeed pkSeed p kp indices) : b.length = n * (forsHeight + 1) := by
  obtain ⟨i, -, rfl⟩ := List.mem_map.mp hb
  exact forsTreeSig_length

lemma forsSignTree_returns (hi : i < forsTrees) (hindex : index < 2 ^ forsHeight) :
    Returns (Addr.Of p addrTypeForstree kp) (forsSignTree H skSeed pkSeed i index)
      (forsTreeSig H skSeed pkSeed p kp i index) (Addr.Of p addrTypeForstree kp) := by
  have hauth : Returns (Addr.Of p addrTypeForstree kp)
      ((range forsHeight).mapM fun j =>
        forsTreehash H skSeed pkSeed j (i * 2 ^ (forsHeight - j) + ((index / 2 ^ j) ^^^ 1)))
      (forsAuth H skSeed pkSeed p kp i index) (Addr.Of p addrTypeForstree kp) := by
    refine Returns.mapM _ fun j hj => ?_
    have hj := mem_range.mp hj
    have hsib := sibling_lt hindex hj
    have hrow : (i + 1) * 2 ^ (forsHeight - j) ≤ forsTrees * 2 ^ (forsHeight - j) :=
      Nat.mul_le_mul_right _ hi
    rw [Nat.add_mul, one_mul] at hrow
    rw [forsIndex_sibling i index hj]
    exact forsTreehash_returns j _ hj.le (by omega)
  refine Returns.modify_bind (fun a ha => ha.setTreeHeight 0) ?_
  exact (forsSkGen_returns _).bind (hauth.bind (Returns.pure _))

lemma forsRoot_returns {forsSig : Bytes} (hi : i < forsTrees) (hindex : index < 2 ^ forsHeight)
    (hsig : forsSig.drop (i * (n * (forsHeight + 1)))
      = forsTreeSig H skSeed pkSeed p kp i index ++ rest) :
    Returns (Addr.Of p addrTypeForstree kp) (forsRoot H forsSig pkSeed i index)
      (forsNode H skSeed pkSeed p kp forsHeight i) (Addr.Of p addrTypeForstree kp) := by
  have hlt : forsIndex i index < 2 ^ 32 := by
    simp only [forsIndex, forsHeight, forsTrees] at *
    omega
  have hsk : block forsSig (i * (forsHeight + 1))
      = forsSk H skSeed pkSeed p kp (forsIndex i index) := by
    rw [block, mul_assoc, mul_comm _ n, hsig, forsTreeSig, append_assoc,
      ← H.prf_length pkSeed skSeed (p.treeAddr addrTypeForsprf kp 0 (forsIndex i index))]
    exact take_left
  have hauth : forsSig.drop (i * n * (forsHeight + 1) + n)
      = (forsAuth H skSeed pkSeed p kp i index).flatten ++ rest := by
    rw [mul_assoc, ← drop_drop, hsig, forsTreeSig, append_assoc,
      ← H.prf_length pkSeed skSeed (p.treeAddr addrTypeForsprf kp 0 (forsIndex i index))]
    exact drop_left
  have hroot : Merkle.climb (treeComb H pkSeed p addrTypeForstree kp)
      (block ((forsAuth H skSeed pkSeed p kp i index).flatten ++ rest)) (forsIndex i index)
      (forsLeaf H skSeed pkSeed p kp (forsIndex i index)) forsHeight
      = forsNode H skSeed pkSeed p kp forsHeight i := by
    rw [Merkle.climb_eq_node, forsIndex_div i index le_rfl, Nat.sub_self, pow_zero, mul_one,
      Nat.div_eq_of_lt hindex, add_zero]
    · rfl
    · intro j hj
      refine block_flatten (fun b hb => length_of_mem_forsAuth hb) ?_
      rw [forsAuth, getElem?_map, getElem?_range hj]
      rfl
  rw [forsRoot, hsk, hauth, ← hroot]
  refine hashAt_returns 0 (forsIndex i index) (Returns.bind
    (v := forsLeaf H skSeed pkSeed p kp (forsIndex i index))
    (Q := Addr.AtIndex p addrTypeForstree kp (forsIndex i index)) ?_ ?_)
  · refine (thashF_returns fun b hb => ?_).mono (fun _ h => h) ?_
    · rw [hb]
      rfl
    · rintro _ rfl
      exact ⟨⟨_, _, _, _, _, rfl⟩, Addr.getTreeIndex_setTreeIndex _ hlt⟩
  · exact climbLevels_returns _ _ hlt fun k hk => by rw [forsIndex_div_mod i index hk]

def forsOpened (message : Bytes) (i : ℕ) : ℕ := (forsBaseB message).getD i 0

lemma forsOpened_lt (message : Bytes) (i : ℕ) : forsOpened message i < 2 ^ forsHeight := by
  have hmem : ∀ x ∈ forsBaseB message, x < 2 ^ forsHeight := by
    intro x hx
    simp only [forsBaseB, mem_flatMap, mem_cons, not_mem_nil, or_false] at hx
    obtain ⟨k, -, rfl | rfl⟩ := hx <;> exact Nat.and_lt_two_pow _ (by decide)
  rw [forsOpened, getD_eq_getElem?_getD]
  cases h : (forsBaseB message)[i]? with
  | none => exact Nat.two_pow_pos _
  | some x => exact hmem x (mem_of_getElem? h)

variable {message : Bytes}

lemma forsSign_returns :
    Returns (Addr.Of p addrTypeForstree kp) (forsSign H message skSeed pkSeed)
      (forsSigs H skSeed pkSeed p kp (forsOpened message)).flatten
      (Addr.Of p addrTypeForstree kp) := by
  refine Returns.bind (v := forsSigs H skSeed pkSeed p kp (forsOpened message)) ?_ (Returns.pure _)
  exact Returns.mapM _ fun i hi =>
    forsSignTree_returns (mem_range.mp hi) (forsOpened_lt message i)

lemma forsRoot_of_forsSigs (hi : i < forsTrees) (rest : Bytes) :
    Returns (Addr.Of p addrTypeForstree kp)
      (forsRoot H ((forsSigs H skSeed pkSeed p kp (forsOpened message)).flatten ++ rest) pkSeed i
        (forsOpened message i))
      (forsNode H skSeed pkSeed p kp forsHeight i) (Addr.Of p addrTypeForstree kp) := by
  have hget : (forsSigs H skSeed pkSeed p kp (forsOpened message))[i]?
      = some (forsTreeSig H skSeed pkSeed p kp i (forsOpened message i)) := by
    rw [forsSigs, getElem?_map, getElem?_range hi]
    rfl
  obtain ⟨rest', hrest⟩ := drop_flatten rest (fun b hb => length_of_mem_forsSigs hb) hget
  exact forsRoot_returns hi (forsOpened_lt message i) hrest

lemma forsPkFromSig_returns (rest : Bytes) :
    Returns (Addr.Of p addrTypeForstree kp)
      (forsPkFromSig H ((forsSigs H skSeed pkSeed p kp (forsOpened message)).flatten ++ rest)
        message pkSeed)
      (forsPk H skSeed pkSeed p kp) (Addr.Of p addrTypeForstree kp) := by
  refine (Returns.mapM _ fun i hi => forsRoot_of_forsSigs (mem_range.mp hi) rest).bind
    (Returns.get_bind fun a ha => ?_)
  obtain ⟨_, _, _, _, _, rfl⟩ := ha
  exact Returns.pure _

lemma forsPkFromSig_forsSigs :
    Returns (Addr.Of p addrTypeForstree kp)
      (forsPkFromSig H (forsSigs H skSeed pkSeed p kp (forsOpened message)).flatten message pkSeed)
      (forsPk H skSeed pkSeed p kp) (Addr.Of p addrTypeForstree kp) := by
  rw [← List.append_nil (forsSigs H skSeed pkSeed p kp (forsOpened message)).flatten]
  exact forsPkFromSig_returns []

lemma forsSigs_flatten_length (indices : ℕ → ℕ) :
    (forsSigs H skSeed pkSeed p kp indices).flatten.length = forsBytes := by
  rw [flatten_length fun b hb => length_of_mem_forsSigs hb, forsSigs, length_map, length_range]
  rfl

section Ht

variable (H skSeed pkSeed)

/-- The place of layer `j` in which the signature of a tree is made, `t` being the tree below. -/
def layerPlace (j t : ℕ) : Place := ⟨UInt8.ofNat j, (t >>> treeHeight) % 2 ^ 64⟩

/-- The signatures of the layers `j`, each of the root below it. -/
def htSigs : List ℕ → Bytes → ℕ → List Bytes
  | [], _, _ => []
  | j :: js, root, t =>
    xmssSig H skSeed pkSeed (layerPlace j t) root (t % 2 ^ treeHeight) ::
      htSigs js (xmssNode H skSeed pkSeed (layerPlace j t) treeHeight 0) (t >>> treeHeight)

end Ht

lemma setLayer_setTree (j t : ℕ) (a : Addr) :
    Addr.In (layerPlace j t) ((a.setLayerAddr j).setTreeAddr (t >>> treeHeight)) := ⟨rfl, rfl⟩

variable (H skSeed pkSeed) in
lemma htSignLayers_returns : ∀ (m j : ℕ) (root : Bytes) (t : ℕ), j + m = d → root.length = n →
    Returns (fun _ => True) (htSignLayers H skSeed pkSeed (range' j m) root t)
      (htSigs H skSeed pkSeed (range' j m) root t).flatten fun _ => True
  | 0, _, _, _, _, _ => Returns.pure []
  | m + 1, j, root, t, hj, hroot => by
    have hidx : t % 2 ^ treeHeight < 2 ^ treeHeight := Nat.mod_lt _ (by decide)
    refine Returns.modify_bind (Q := fun a => ∃ b : Addr, a = b.setLayerAddr j)
      (fun a _ => ⟨a, rfl⟩) (Returns.modify_bind (Q := Addr.In (layerPlace j t)) ?_ ?_)
    · rintro _ ⟨b, rfl⟩
      exact setLayer_setTree j t b
    refine (xmssSign_returns hidx).bind ?_
    by_cases hlast : j < d - 1
    · rw [if_pos hlast]
      refine (xmssPkFromSig_xmssSig hroot hidx).bind ?_
      have htail := htSignLayers_returns m (j + 1) (xmssNode H skSeed pkSeed (layerPlace j t)
        treeHeight 0) (t >>> treeHeight) (by omega) (xmssNode_length _ _)
      exact (htail.mono (fun _ _ => trivial) fun _ h => h).bind (Returns.pure _)
    · obtain rfl : m = 0 := by omega
      rw [if_neg hlast]
      exact fun a _ => ⟨a, rfl, trivial⟩

lemma htVerifyLayer_returns {t : ℕ} {js : List ℕ}
    (hroot : root.length = n) (hsig : sig.drop (j * xmssBytes)
      = xmssSig H skSeed pkSeed (layerPlace j t) root (t % 2 ^ treeHeight) ++ rest)
    (hnext : Returns (fun _ => True) (htVerifyLayers H sig pkSeed js
      (xmssNode H skSeed pkSeed (layerPlace j t) treeHeight 0) (t >>> treeHeight)) v
      fun _ => True) :
    Returns (fun _ => True) (htVerifyLayers H sig pkSeed (j :: js) root t) v fun _ => True := by
  have hidx : t % 2 ^ treeHeight < 2 ^ treeHeight := Nat.mod_lt _ (by decide)
  rw [htVerifyLayers, hsig]
  refine Returns.modify_bind (Q := fun a => ∃ b : Addr, a = b.setLayerAddr j)
    (fun a _ => ⟨a, rfl⟩) (Returns.modify_bind (Q := Addr.In (layerPlace j t)) ?_ ?_)
  · rintro _ ⟨b, rfl⟩
    exact setLayer_setTree j t b
  exact (xmssPkFromSig_returns hroot hidx rest).bind (hnext.mono (fun _ _ => trivial) fun _ h => h)

lemma htVerifyLayers_returns (m j : ℕ) (root : Bytes) (t : ℕ) (hj : j + m + 1 = d)
    (hroot : root.length = n)
    (hsig : sig.drop (j * xmssBytes)
      = (htSigs H skSeed pkSeed (range' j (m + 1)) root t).flatten) :
    Returns (fun _ => True) (htVerifyLayers H sig pkSeed (range' j (m + 1)) root t)
      (xmssNode H skSeed pkSeed (layerPlace (d - 1) (t >>> (treeHeight * m))) treeHeight 0)
      fun _ => True := by
  induction m generalizing j root t with
  | zero =>
    obtain rfl : j = d - 1 := by omega
    exact htVerifyLayer_returns hroot hsig (Returns.pure _)
  | succ m ih =>
    rw [range'_succ, htSigs, flatten_cons] at hsig
    have hrest : sig.drop ((j + 1) * xmssBytes) = (htSigs H skSeed pkSeed
        (range' (j + 1) (m + 1)) (xmssNode H skSeed pkSeed (layerPlace j t) treeHeight 0)
        (t >>> treeHeight)).flatten := by
      rw [Nat.add_mul, one_mul, ← drop_drop, hsig, ← xmssSig_length hroot, drop_left]
    have htail := ih (j + 1) _ _ (by omega) (xmssNode_length _ _) hrest
    rw [← Nat.shiftRight_add, add_comm treeHeight, ← Nat.mul_succ] at htail
    exact htVerifyLayer_returns hroot hsig htail

section Ht

variable (H skSeed pkSeed) (message : Bytes) (idxTree idxLeaf : ℕ)

def bottomPlace : Place := ⟨0, idxTree % 2 ^ 64⟩

def htSig : Bytes :=
  xmssSig H skSeed pkSeed (bottomPlace idxTree) message idxLeaf ++
    (htSigs H skSeed pkSeed upperLayers
      (xmssNode H skSeed pkSeed (bottomPlace idxTree) treeHeight 0) idxTree).flatten

end Ht

variable {idxTree idxLeaf : ℕ}

lemma htSign_eq (hmessage : message.length = n) (hleaf : idxLeaf < 2 ^ treeHeight) :
    htSign H message idxTree idxLeaf skSeed pkSeed
      = some (htSig H skSeed pkSeed message idxTree idxLeaf) := by
  refine Returns.run' (P := fun a => a = Addr.zero) (Q := fun _ => True) ?_ rfl
  refine Returns.modify_bind (Q := Addr.In (bottomPlace idxTree)) ?_ ?_
  · rintro _ rfl
    exact ⟨rfl, rfl⟩
  refine (xmssSign_returns hleaf).bind ((xmssPkFromSig_xmssSig hmessage hleaf).bind ?_)
  have hupper := htSignLayers_returns H skSeed pkSeed (d - 1) 1 (xmssNode H skSeed pkSeed
    (bottomPlace idxTree) treeHeight 0) idxTree rfl (xmssNode_length _ _)
  exact (hupper.mono (fun _ _ => trivial) fun _ h => h).bind (Returns.pure _)

lemma htVerify_eq (hmessage : message.length = n) (hleaf : idxLeaf < 2 ^ treeHeight)
    (htree : idxTree < 2 ^ treeBits) :
    htVerify H (htSig H skSeed pkSeed message idxTree idxLeaf) message idxTree idxLeaf
      (xmssNode H skSeed pkSeed ⟨UInt8.ofNat (d - 1), 0⟩ treeHeight 0) pkSeed = some true := by
  have htop : layerPlace (d - 1) (idxTree >>> (treeHeight * (d - 2)))
      = ⟨UInt8.ofNat (d - 1), 0⟩ := by
    have hbits : treeHeight * (d - 2) + treeHeight = treeBits := rfl
    rw [layerPlace, ← Nat.shiftRight_add, hbits, Nat.shiftRight_eq_div_pow, Nat.div_eq_of_lt htree,
      Nat.zero_mod]
  refine Returns.run' (P := fun a => a = Addr.zero) (Q := fun _ => True) ?_ rfl
  refine Returns.modify_bind (Q := Addr.In (bottomPlace idxTree)) ?_ ?_
  · rintro _ rfl
    exact ⟨rfl, rfl⟩
  refine (xmssPkFromSig_returns hmessage hleaf _).bind ?_
  have hdrop : (htSig H skSeed pkSeed message idxTree idxLeaf).drop (1 * xmssBytes)
      = (htSigs H skSeed pkSeed (range' 1 (d - 2 + 1)) (xmssNode H skSeed pkSeed
        (bottomPlace idxTree) treeHeight 0) idxTree).flatten := by
    rw [htSig, one_mul, ← xmssSig_length hmessage, drop_left]
    rfl
  have hupper := htVerifyLayers_returns (d - 2) 1 _ _ rfl (xmssNode_length _ _) hdrop
  rw [htop] at hupper
  refine (hupper.mono (fun _ _ => trivial) fun _ h => h).bind ?_
  rw [beq_self_eq_true]
  exact Returns.pure true

lemma htSig_length (hmessage : message.length = n) :
    (htSig H skSeed pkSeed message idxTree idxLeaf).length = d * xmssBytes := by
  have hsigs : ∀ (js : List ℕ) (root : Bytes) (t : ℕ), root.length = n →
      (htSigs H skSeed pkSeed js root t).flatten.length = js.length * xmssBytes := by
    intro js
    induction js with
    | nil => simp [htSigs]
    | cons j js ih =>
      intro root t hroot
      rw [htSigs, flatten_cons, length_append, xmssSig_length hroot,
        ih _ _ (xmssNode_length _ _), length_cons]
      ring
  rw [htSig, length_append, xmssSig_length hmessage, hsigs _ _ _ (xmssNode_length _ _)]
  rfl

variable (H) in
/-- The root of the top layer's only tree for the seeds in `seed`. -/
def seedRoot (seed : Bytes) : Bytes :=
  xmssNode H (seed.take n) ((seed.drop (2 * n)).take n) ⟨UInt8.ofNat (d - 1), 0⟩ treeHeight 0

lemma seedRoot_length (seed : Bytes) : (seedRoot H seed).length = n := xmssNode_length _ _

lemma generateKeyFromSeed_eq (seed : Bytes) :
    generateKeyFromSeed H seed
      = some ((seed.drop (2 * n)).take n ++ seedRoot H seed,
          seed.take (3 * n) ++ seedRoot H seed) := by
  have hroot : (treehash H (seed.take n) ((seed.drop (2 * n)).take n) treeHeight 0).run'
      (Addr.zero.setLayerAddr (d - 1)) = some (seedRoot H seed) :=
    (treehash_returns treeHeight 0 le_rfl (Nat.two_pow_pos _)).run' ⟨rfl, rfl⟩
  rw [generateKeyFromSeed, hroot]
  rfl

lemma loadLeafIndex_lt (input : Bytes) : loadLeafIndex input < 2 ^ treeHeight :=
  Nat.mod_lt _ (by decide)

lemma loadTreeIndex_lt (input : Bytes) : loadTreeIndex input < 2 ^ treeBits :=
  Nat.mod_lt _ (by decide)

lemma forsAddr_of :
    Addr.Of (bottomPlace idxTree) addrTypeForstree idxLeaf (forsAddr idxTree idxLeaf) :=
  ⟨0, 0, 0, 0, 0, rfl⟩

section Signature

variable (H skSeed pkSeed) (digest : Bytes)

def idxTreeOf : ℕ := loadTreeIndex (digest.drop forsMsgBytes)
def idxLeafOf : ℕ := loadLeafIndex (digest.drop (forsMsgBytes + treeBytes))

def forsSigOf : Bytes :=
  (forsSigs H skSeed pkSeed (bottomPlace (idxTreeOf digest)) (idxLeafOf digest)
    (forsOpened (digest.take forsMsgBytes))).flatten

def forsPkOf : Bytes := forsPk H skSeed pkSeed (bottomPlace (idxTreeOf digest)) (idxLeafOf digest)

/-- The signature of a digest, without its randomizer. -/
def htSigOf : Bytes :=
  htSig H skSeed pkSeed (forsPkOf H skSeed pkSeed digest) (idxTreeOf digest) (idxLeafOf digest)

end Signature

variable {header : Option Bytes} {context r digest : Bytes}

lemma signInternal_eq {sk entropy : Bytes} (hskSeed : sk.take n = skSeed)
    (hpkSeed : (sk.drop (2 * n)).take n = pkSeed)
    (hr : H.prfmsg ((sk.drop n).take n) entropy header context msg = r)
    (hdigest : H.hmsg r pkSeed ((sk.drop (3 * n)).take n) header context msg = digest) :
    signInternal H sk header context msg entropy
      = some (r ++ forsSigOf H skSeed pkSeed digest ++ htSigOf H skSeed pkSeed digest) := by
  have hfors : StateT.run' (s := forsAddr (idxTreeOf digest) (idxLeafOf digest)) (do
      let forsSig ← forsSign H (digest.take forsMsgBytes) skSeed pkSeed
      let pkFors ← forsPkFromSig H forsSig (digest.take forsMsgBytes) pkSeed
      return (forsSig, pkFors))
      = some (forsSigOf H skSeed pkSeed digest, forsPkOf H skSeed pkSeed digest) := by
    refine Returns.run' (forsSign_returns.bind
      (R := Addr.Of (bottomPlace (idxTreeOf digest)) addrTypeForstree (idxLeafOf digest)) ?_)
      forsAddr_of
    exact forsPkFromSig_forsSigs.bind (Returns.pure _)
  have hht : htSign H (forsPkOf H skSeed pkSeed digest) (idxTreeOf digest) (idxLeafOf digest) skSeed
      pkSeed = some (htSigOf H skSeed pkSeed digest) :=
    htSign_eq (H.tk_length _ _ _) (loadLeafIndex_lt _)
  simp only [idxTreeOf, idxLeafOf] at hfors hht
  simp only [signInternal, hr, hskSeed, hpkSeed, hdigest, hfors, Option.bind_eq_bind,
    Option.bind_some, hht]
  rfl

lemma verifyInternal_eq {pk : Bytes} (hr : r.length = n) (hpkSeed : pk.take n = pkSeed)
    (hpkRoot : (pk.drop n).take n = xmssNode H skSeed pkSeed ⟨UInt8.ofNat (d - 1), 0⟩ treeHeight 0)
    (hdigest : H.hmsg r pkSeed ((pk.drop n).take n) header context msg = digest) :
    verifyInternal H (r ++ forsSigOf H skSeed pkSeed digest ++ htSigOf H skSeed pkSeed digest) pk
      header context msg = some .approved := by
  have hpkFors : (forsPkOf H skSeed pkSeed digest).length = n := H.tk_length _ _ _
  have hlen : (r ++ forsSigOf H skSeed pkSeed digest ++ htSigOf H skSeed pkSeed digest).length
      = signatureBytes := by
    rw [length_append, length_append, hr, forsSigOf, forsSigs_flatten_length, htSigOf,
      htSig_length hpkFors]
    rfl
  have htake : (r ++ forsSigOf H skSeed pkSeed digest ++ htSigOf H skSeed pkSeed digest).take n
      = r := by
    rw [append_assoc, ← hr, take_left]
  have hdrop : (r ++ forsSigOf H skSeed pkSeed digest ++ htSigOf H skSeed pkSeed digest).drop n
      = forsSigOf H skSeed pkSeed digest ++ htSigOf H skSeed pkSeed digest := by
    rw [append_assoc, ← hr, drop_left]
  have hht : (forsSigOf H skSeed pkSeed digest ++ htSigOf H skSeed pkSeed digest).drop forsBytes
      = htSigOf H skSeed pkSeed digest := by
    rw [forsSigOf, ← forsSigs_flatten_length, drop_left]
  have hfors : (forsPkFromSig H (forsSigOf H skSeed pkSeed digest ++ htSigOf H skSeed pkSeed digest)
      (digest.take forsMsgBytes) pkSeed).run' (forsAddr (idxTreeOf digest) (idxLeafOf digest))
      = some (forsPkOf H skSeed pkSeed digest) :=
    (forsPkFromSig_returns _).run' forsAddr_of
  have hverify : htVerify H (htSigOf H skSeed pkSeed digest) (forsPkOf H skSeed pkSeed digest)
      (idxTreeOf digest) (idxLeafOf digest) ((pk.drop n).take n) pkSeed = some true := by
    rw [hpkRoot]
    exact htVerify_eq hpkFors (loadLeafIndex_lt _) (loadTreeIndex_lt _)
  simp only [idxTreeOf, idxLeafOf] at hfors hverify
  rw [verifyInternal, if_neg (not_not.mpr hlen)]
  simp only [htake, hdrop, hht, hpkSeed, hdigest, hfors, Option.bind_eq_bind, Option.bind_some,
    hverify, if_true]

lemma secretKey_parts (hseed : seed.length = 3 * n) (hroot : root.length = n) :
    (seed.take (3 * n) ++ root).take n = seed.take n ∧
    ((seed.take (3 * n) ++ root).drop (2 * n)).take n = (seed.drop (2 * n)).take n ∧
    ((seed.take (3 * n) ++ root).drop (3 * n)).take n = root := by
  rw [take_of_length_le hseed.le]
  refine ⟨?_, ?_, ?_⟩
  · exact take_append_of_le_length (by simp only [n] at *; omega)
  · grind
  · rw [← hseed, drop_left, ← hroot, take_length]

lemma publicKey_parts (hseed : seed.length = 3 * n) (hroot : root.length = n) :
    ((seed.drop (2 * n)).take n ++ root).take n = (seed.drop (2 * n)).take n ∧
    (((seed.drop (2 * n)).take n ++ root).drop n).take n = root := by
  grind

/-- What the signer signs under the key pair of a seed the verifier approves, and no check fails on
either side.  Behind it: for any contents of the shared address that name the same tree, the root
recomputed from an XMSS signature is the one `slhdsa_treehash` defines, and likewise for each FORS
tree and `slhdsa_fors_treehash`. -/
theorem verifyInternal_signInternal (H : Thash) :
    (∀ (seed : Bytes) (header : Option Bytes) (context msg entropy : Bytes), seed.length = 3 * n →
      ∃ pk sk sig, generateKeyFromSeed H seed = some (pk, sk) ∧
        signInternal H sk header context msg entropy = some sig ∧
        verifyInternal H sig pk header context msg = some .approved) ∧
    (∀ (skSeed pkSeed msg : Bytes) (idx : ℕ) (a b c : Addr), msg.length = n → idx < 2 ^ treeHeight →
      a.layer = b.layer → a.tree = b.tree → a.layer = c.layer → a.tree = c.tree →
      ∃ sig root, (xmssSign H msg idx skSeed pkSeed).run' a = some sig ∧
        (xmssPkFromSig H sig idx msg pkSeed).run' b = some root ∧
        (treehash H skSeed pkSeed treeHeight 0).run' c = some root) ∧
    ∀ (skSeed pkSeed message : Bytes) (idxTree idxLeaf : ℕ), ∃ (sig : Bytes) (roots : ℕ → Bytes),
        (forsSign H message skSeed pkSeed).run' (forsAddr idxTree idxLeaf) = some sig ∧
        (∀ i < forsTrees,
          (forsRoot H sig pkSeed i ((forsBaseB message).getD i 0)).run' (forsAddr idxTree idxLeaf)
            = some (roots i) ∧
          (forsTreehash H skSeed pkSeed forsHeight i).run' (forsAddr idxTree idxLeaf)
            = some (roots i)) ∧
        (forsPkFromSig H sig message pkSeed).run' (forsAddr idxTree idxLeaf)
          = some (H.tk ((range forsTrees).map roots).flatten pkSeed
              (((forsAddr idxTree idxLeaf).setType addrTypeForspk).copyKeypairAddr
                (forsAddr idxTree idxLeaf)).bytes) := by
  refine ⟨?_, ?_, ?_⟩
  · intro seed header context msg entropy hseed
    obtain ⟨hskSeed, hpkSeed, hpkRoot⟩ := secretKey_parts hseed (seedRoot_length (H := H) seed)
    obtain ⟨hseed', hroot'⟩ := publicKey_parts hseed (seedRoot_length (H := H) seed)
    refine ⟨_, _, _, generateKeyFromSeed_eq seed, signInternal_eq hskSeed hpkSeed rfl rfl, ?_⟩
    refine verifyInternal_eq (H.prfmsg_length _ _ _ _ _) hseed' hroot' ?_
    rw [hpkRoot, hroot']
  · intro skSeed pkSeed msg idx a b c hmsg hidx hlab htab hlac htac
    exact ⟨_, _, (xmssSign_returns (p := ⟨a.layer, a.tree⟩) hidx).run' ⟨rfl, rfl⟩,
      (xmssPkFromSig_xmssSig hmsg hidx).run' ⟨hlab.symm, htab.symm⟩,
      (treehash_returns treeHeight 0 le_rfl (Nat.two_pow_pos _)).run' ⟨hlac.symm, htac.symm⟩⟩
  · intro skSeed pkSeed message idxTree idxLeaf
    refine ⟨_, forsNode H skSeed pkSeed (bottomPlace idxTree) idxLeaf forsHeight,
      forsSign_returns.run' forsAddr_of, fun i hi => ⟨?_, ?_⟩,
      forsPkFromSig_forsSigs.run' forsAddr_of⟩
    · rw [← List.append_nil (forsSigs H skSeed pkSeed _ idxLeaf (forsOpened message)).flatten]
      exact (forsRoot_of_forsSigs hi []).run' forsAddr_of
    · have hnode : i < forsTrees * 2 ^ (forsHeight - forsHeight) := by
        rwa [Nat.sub_self, pow_zero, mul_one]
      exact (forsTreehash_returns forsHeight i le_rfl hnode).run' forsAddr_of

/-- Hashes that keep the last bytes. -/
def lastBytes : Thash where
  f input pkSeed addr := beBytes n (beNat (pkSeed ++ input ++ addr))
  h input pkSeed addr := beBytes n (beNat (pkSeed ++ input ++ addr))
  tl input pkSeed addr := beBytes n (beNat (pkSeed ++ input ++ addr))
  tk input pkSeed addr := beBytes n (beNat (pkSeed ++ input ++ addr))
  prf pkSeed skSeed addr := beBytes n (beNat (pkSeed ++ skSeed ++ addr))
  prfmsg skPrf entropy header ctx msg :=
    beBytes n (beNat (skPrf ++ entropy ++ header.getD [] ++ ctx ++ msg))
  hmsg r pkSeed pkRoot header ctx msg :=
    beBytes digestSize (beNat (pkSeed ++ pkRoot ++ header.getD [] ++ ctx ++ msg ++ r))
  f_length _ _ _ := beBytes_length _ _
  h_length _ _ _ := beBytes_length _ _
  tl_length _ _ _ := beBytes_length _ _
  tk_length _ _ _ := beBytes_length _ _
  prf_length _ _ _ := beBytes_length _ _
  prfmsg_length _ _ _ _ _ := beBytes_length _ _
  hmsg_length _ _ _ _ _ _ := beBytes_length _ _

theorem verifyInternal_signInternal_lastBytes :
    (∃ pk sk sig, generateKeyFromSeed lastBytes (replicate 48 7) = some (pk, sk) ∧
      signInternal lastBytes sk (some [0, 0]) [] [1, 2, 3] (replicate 16 9) = some sig ∧
      verifyInternal lastBytes sig pk (some [0, 0]) [] [1, 2, 3] = some .approved) ∧
    ∃ sig root, (xmssSign lastBytes (replicate 16 5) 300 [1] [2]).run' Addr.zero = some sig ∧
      (xmssPkFromSig lastBytes sig 300 (replicate 16 5) [2]).run' Addr.zero = some root ∧
      (treehash lastBytes [1] [2] treeHeight 0).run' Addr.zero = some root :=
  ⟨(verifyInternal_signInternal lastBytes).1 _ _ _ _ _ rfl,
    (verifyInternal_signInternal lastBytes).2.1 _ _ _ _ _ Addr.zero Addr.zero rfl (by decide) rfl
      rfl rfl rfl⟩

end BoringSSL.SlhDsa
