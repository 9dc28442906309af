import BoringSSL.SlhDsa
import BoringSSL.Lib.Merkle

/-!
# The values of SLH-DSA's hash trees

What each function returns does not depend on what the ones before it left in the shared address.
So the returned values can be written as functions of the places they are for (`wotsLeaf`,
`xmssNode`, `forsNode`), and the verifier's climb arrives at the same nodes.
-/

namespace BoringSSL.SlhDsa

open ByteLib List

variable {P : Addr → Prop} {a : Addr} {v i : ℕ} {sig msg : Bytes} {type : UInt8} {bs : List Bytes}
  {input b : Bytes} {m : ℕ}

/-- A tree of the hypertree. -/
structure Place where
  layer : UInt8
  tree : ℕ

def Place.addr (p : Place) (type : UInt8) (kp : ℕ) (b17 b18 b19 b20 b21 : UInt8) : Addr :=
  ⟨p.layer, p.tree, type, 0, 0, UInt8.ofNat (kp >>> 8), UInt8.ofNat kp, 0, 0, 0, b17, b18, b19, b20,
    b21⟩

def Place.treeAddr (p : Place) (type : UInt8) (kp z i : ℕ) : Bytes :=
  ((p.addr type kp (UInt8.ofNat z) 0 0 0 0).setTreeIndex i).bytes

def Place.chainAddr (p : Place) (type : UInt8) (kp c i : ℕ) : Bytes :=
  (p.addr type kp (UInt8.ofNat c) 0 0 0 (UInt8.ofNat i)).bytes

namespace Addr

/-- The address is in the tree. -/
def In (p : Place) (a : Addr) : Prop := a.layer = p.layer ∧ a.tree = p.tree

/-- Those of a type and a key pair; the last five bytes are free. -/
def Of (p : Place) (type : UInt8) (kp : ℕ) (a : Addr) : Prop :=
  ∃ b17 b18 b19 b20 b21, a = p.addr type kp b17 b18 b19 b20 b21

/-- An address of a WOTS+ key. -/
def OfWots (p : Place) (kp : ℕ) (a : Addr) : Prop :=
  ∃ b17 b21, a = p.addr addrTypeWots kp b17 0 0 0 b21

/-- An address in a chain of the key. -/
def OfChain (p : Place) (kp c : ℕ) (a : Addr) : Prop :=
  ∃ b21, a = p.addr addrTypeWots kp (UInt8.ofNat c) 0 0 0 b21

/-- The address of a node by its index. -/
def AtIndex (p : Place) (type : UInt8) (kp i : ℕ) (a : Addr) : Prop :=
  Of p type kp a ∧ a.getTreeIndex = i

variable {p : Place} {type : UInt8} {kp c i : ℕ} {a : Addr}

lemma Of.in (h : Of p type kp a) : In p a := by
  obtain ⟨_, _, _, _, _, rfl⟩ := h
  exact ⟨rfl, rfl⟩

lemma OfWots.in (h : OfWots p kp a) : In p a := by
  obtain ⟨_, _, rfl⟩ := h
  exact ⟨rfl, rfl⟩

lemma OfChain.ofWots (h : OfChain p kp c a) : OfWots p kp a := by
  obtain ⟨b21, rfl⟩ := h
  exact ⟨_, b21, rfl⟩

lemma In.setType (h : In p a) : a.setType type = p.addr type 0 0 0 0 0 0 := by
  obtain ⟨hlayer, htree⟩ := h
  rw [Addr.setType, hlayer, htree]
  rfl

lemma getTreeIndex_setTreeIndex (a : Addr) (hi : i < 2 ^ 32) :
    (a.setTreeIndex i).getTreeIndex = i := by
  simp only [setTreeIndex, getTreeIndex, beNat, foldl, UInt8.toNat_ofNat']
  omega

lemma Of.setTreeHeight (h : Of p type kp a) (z : ℕ) : Of p type kp (a.setTreeHeight z) := by
  obtain ⟨_, _, _, _, _, rfl⟩ := h
  exact ⟨_, _, _, _, _, rfl⟩

lemma Of.setTreeIndex (h : Of p type kp a) (i : ℕ) : Of p type kp (a.setTreeIndex i) := by
  obtain ⟨_, _, _, _, _, rfl⟩ := h
  exact ⟨_, _, _, _, _, rfl⟩

end Addr

variable (H : Thash) (skSeed pkSeed : Bytes) (p : Place)

def wotsSk (kp c : ℕ) : Bytes := H.prf pkSeed skSeed (p.chainAddr addrTypeWotsprf kp c 0)

def wotsStep (kp c : ℕ) (x : Bytes) (i : ℕ) : Bytes :=
  H.f x pkSeed (p.chainAddr addrTypeWots kp c i)

/-- `x` after the steps of chain `c` from `start` to before `stop`. -/
def wotsSteps (kp c start stop : ℕ) (x : Bytes) : Bytes :=
  (range' start (stop - start)).foldl (wotsStep H pkSeed p kp c) x

/-- What a signature holds for chain `c` with digit `v`. -/
def wotsPart (kp c v : ℕ) : Bytes := wotsSteps H pkSeed p kp c 0 v (wotsSk H skSeed pkSeed p kp c)

def wotsLeaf (kp : ℕ) : Bytes :=
  H.tl ((range' 0 wotsLen).map fun c => wotsPart H skSeed pkSeed p kp c 15).flatten pkSeed
    (p.chainAddr addrTypeWotspk kp 0 0)

def treeComb (type : UInt8) (kp z i : ℕ) (left right : Bytes) : Bytes :=
  H.h (left ++ right) pkSeed (p.treeAddr type kp z i)

def xmssNode (z i : ℕ) : Bytes :=
  Merkle.node (wotsLeaf H skSeed pkSeed p) (treeComb H pkSeed p addrTypeHashtree 0) z i

def forsSk (kp i : ℕ) : Bytes := H.prf pkSeed skSeed (p.treeAddr addrTypeForsprf kp 0 i)

def forsLeaf (kp i : ℕ) : Bytes :=
  H.f (forsSk H skSeed pkSeed p kp i) pkSeed (p.treeAddr addrTypeForstree kp 0 i)

/-- Node `i` at height `z` of the row of FORS trees of a key pair. -/
def forsNode (kp z i : ℕ) : Bytes :=
  Merkle.node (forsLeaf H skSeed pkSeed p kp) (treeComb H pkSeed p addrTypeForstree kp) z i

def forsPk (kp : ℕ) : Bytes :=
  H.tk ((range forsTrees).map (forsNode H skSeed pkSeed p kp forsHeight)).flatten pkSeed
    (p.treeAddr addrTypeForspk kp 0 0)

variable {H skSeed pkSeed p} {kp c : ℕ}

lemma thashF_returns {addr : Bytes} (h : ∀ a, P a → a.bytes = addr) :
    Returns P (thashF H input pkSeed) (H.f input pkSeed addr) P := by
  intro a ha
  rw [← h a ha]
  exact ⟨a, rfl, ha⟩

lemma thashH_returns {addr : Bytes} (h : ∀ a, P a → a.bytes = addr) :
    Returns P (thashH H input pkSeed) (H.h input pkSeed addr) P := by
  intro a ha
  rw [← h a ha]
  exact ⟨a, rfl, ha⟩

lemma chain_returns {start steps : ℕ} (hstart : start < wotsW) (hsteps : start + steps < wotsW) :
    Returns (Addr.OfChain p kp c) (chain H input start steps pkSeed)
      (wotsSteps H pkSeed p kp c start (start + steps) input) (Addr.OfChain p kp c) := by
  have hmin : min (start + steps) wotsW - start = start + steps - start := by omega
  rw [chain, wotsSteps, hmin]
  refine Returns.check_bind hstart (Returns.check_bind (by omega) ?_)
  refine Returns.foldlM (fun x i => ?_) _ _
  -- Whatever step the address stood at, `i` is written over it.
  refine Returns.modify_bind (Q := fun a =>
    a = p.addr addrTypeWots kp (UInt8.ofNat c) 0 0 0 (UInt8.ofNat i)) ?_ ?_
  · rintro _ ⟨b21, rfl⟩
    rfl
  · refine (thashF_returns fun a ha => ?_).mono (fun _ h => h) fun a ha => ⟨_, ha⟩
    rw [ha]
    rfl

lemma wotsSteps_trans (x : Bytes) {a b e : ℕ} (hab : a ≤ b) (hbe : b ≤ e) :
    wotsSteps H pkSeed p kp c b e (wotsSteps H pkSeed p kp c a b x)
      = wotsSteps H pkSeed p kp c a e x := by
  have hrange : range' a (e - a) = range' a (b - a) ++ range' b (e - b) := by
    rw [show e - a = b - a + (e - b) by omega, ← range'_append_1, Nat.add_sub_cancel' hab]
  rw [wotsSteps, wotsSteps, wotsSteps, hrange, foldl_append]

lemma wotsSteps_length {x : Bytes} (hx : x.length = n) (a b : ℕ) :
    (wotsSteps H pkSeed p kp c a b x).length = n := by
  rw [wotsSteps]
  generalize range' a (b - a) = l
  induction l generalizing x with
  | nil => exact hx
  | cons i l ih => exact ih (H.f_length _ _ _)

lemma wotsPart_length (kp c v : ℕ) : (wotsPart H skSeed pkSeed p kp c v).length = n :=
  wotsSteps_length (H.prf_length _ _ _) _ _

lemma setChainAddr_ofChain (h : Addr.OfWots p kp a) : Addr.OfChain p kp c (a.setChainAddr c) := by
  obtain ⟨b17, b21, rfl⟩ := h
  exact ⟨b21, rfl⟩

lemma wotsDoChain_returns (hv : v < wotsW) (b17 : UInt8) :
    Returns (Addr.OfWots p kp)
      (wotsDoChain H (p.addr addrTypeWotsprf kp b17 0 0 0 0) v skSeed pkSeed c)
      (wotsPart H skSeed pkSeed p kp c v, p.addr addrTypeWotsprf kp (UInt8.ofNat c) 0 0 0 0)
      (Addr.OfWots p kp) := by
  refine Returns.modify_bind (fun a ha => setChainAddr_ofChain ha) ?_
  have hchain : Returns (Addr.OfChain p kp c) (chain H (wotsSk H skSeed pkSeed p kp c) 0 v pkSeed)
      (wotsSteps H pkSeed p kp c 0 (0 + v) (wotsSk H skSeed pkSeed p kp c)) (Addr.OfChain p kp c) :=
    chain_returns (by decide) (by omega)
  rw [zero_add] at hchain
  exact (hchain.mono (fun _ h => h) fun _ h => h.ofWots).bind (Returns.pure _)

variable (H skSeed pkSeed p kp) in
lemma wotsDoChains_returns : ∀ (vs : List ℕ) (b17 : UInt8) (c : ℕ), (∀ v ∈ vs, v < wotsW) →
    Returns (Addr.OfWots p kp)
      (wotsDoChains H skSeed pkSeed (p.addr addrTypeWotsprf kp b17 0 0 0 0) c vs)
      ((vs.zipIdx c).map fun x => wotsPart H skSeed pkSeed p kp x.2 x.1).flatten (Addr.OfWots p kp)
  | [], _, _, _ => Returns.pure []
  | v :: vs, b17, c, hvs => by
    refine (wotsDoChain_returns (hvs v mem_cons_self) b17).bind ?_
    have htail := wotsDoChains_returns vs (UInt8.ofNat c) (c + 1)
      fun w hw => hvs w (mem_cons_of_mem v hw)
    exact htail.bind (Returns.pure _)

lemma wotsPkFromSigDoChains_returns :
    ∀ (vs : List ℕ) (c : ℕ), (∀ v ∈ vs, v < wotsW) →
    (∀ x ∈ vs.zipIdx c, block sig x.2 = wotsPart H skSeed pkSeed p kp x.2 x.1) →
    Returns (Addr.OfWots p kp) (wotsPkFromSigDoChains H sig pkSeed c vs)
      ((range' c vs.length).map fun c => wotsPart H skSeed pkSeed p kp c 15).flatten
      (Addr.OfWots p kp)
  | [], _, _, _ => Returns.pure []
  | v :: vs, c, hvs, hsig => by
    have hv : v < wotsW := hvs v mem_cons_self
    have hstop : v + (wotsW - 1 - v) = 15 := by simp only [wotsW] at hv ⊢; omega
    have hsigv : block sig c = wotsPart H skSeed pkSeed p kp c v :=
      hsig (v, c) (by rw [zipIdx_cons]; exact mem_cons_self)
    have hend : wotsSteps H pkSeed p kp c v 15 (block sig c)
        = wotsPart H skSeed pkSeed p kp c 15 := by
      rw [hsigv]
      exact wotsSteps_trans _ (Nat.zero_le v) (by simp only [wotsW] at hv; omega)
    have hchain : Returns (Addr.OfChain p kp c) (chain H (block sig c) v (wotsW - 1 - v) pkSeed)
        (wotsSteps H pkSeed p kp c v (v + (wotsW - 1 - v)) (block sig c)) (Addr.OfChain p kp c) :=
      chain_returns hv (by omega)
    rw [hstop, hend] at hchain
    have hone : Returns (Addr.OfWots p kp) (wotsPkFromSigDoChain H sig v pkSeed c)
        (wotsPart H skSeed pkSeed p kp c 15) (Addr.OfWots p kp) :=
      Returns.modify_bind (fun a ha => setChainAddr_ofChain ha)
        (hchain.mono (fun _ h => h) fun _ h => h.ofWots)
    refine hone.bind ((wotsPkFromSigDoChains_returns vs (c + 1) ?_ ?_).bind (Returns.pure _))
    · exact fun w hw => hvs w (mem_cons_of_mem v hw)
    · exact fun x hx => hsig x (by rw [zipIdx_cons]; exact mem_cons_of_mem _ hx)

lemma csum_le (msg : Bytes) : csum msg ≤ 30 * msg.length := by
  have hfold : ∀ (msg : Bytes) (c : ℕ), msg.foldl (fun csum b => (csum +
      (wotsW - 1 - (b.toNat >>> 4)) + (wotsW - 1 - (b.toNat &&& 15))) % 2 ^ 16) c
      ≤ c + 30 * msg.length := by
    intro msg
    induction msg with
    | nil => simp
    | cons b msg ih =>
      intro c
      refine (ih _).trans ?_
      have := Nat.mod_le (c + (wotsW - 1 - (b.toNat >>> 4)) + (wotsW - 1 - (b.toNat &&& 15)))
        (2 ^ 16)
      simp only [length_cons, wotsW] at this ⊢
      omega
  simpa [csum] using hfold msg 0

def wotsDigits (msg : Bytes) : List ℕ :=
  nibbles msg ++ [(csum msg >>> 8) &&& 15, (csum msg >>> 4) &&& 15, csum msg &&& 15]

lemma wotsDigits_lt (hv : v ∈ wotsDigits msg) : v < wotsW := by
  have hand (m : ℕ) : m &&& 15 < 16 := Nat.and_lt_two_pow m (by decide : 15 < 2 ^ 4)
  simp only [wotsDigits, nibbles, mem_append, mem_flatMap, mem_cons, not_mem_nil, or_false] at hv
  obtain ⟨b, -, rfl | rfl⟩ | rfl | rfl | rfl := hv
  · have := b.toNat_lt
    simp only [Nat.shiftRight_eq_div_pow, wotsW]
    omega
  all_goals exact hand _

lemma wotsDigits_length (hmsg : msg.length = n) : (wotsDigits msg).length = wotsLen := by
  simp [wotsDigits, nibbles, hmsg, n, wotsLen, length_flatMap]

lemma wotsPkFromSig_digits (hmsg : msg.length = n) :
    nibbles msg ++ [(csum msg >>> 8) % 2 ^ 8, (csum msg >>> 4) &&& 15, csum msg &&& 15]
      = wotsDigits msg := by
  have hle := csum_le msg
  rw [hmsg, n] at hle
  have hand : csum msg >>> 8 &&& 15 = (csum msg >>> 8) % 2 ^ 4 :=
    Nat.and_two_pow_sub_one_eq_mod _ 4
  rw [wotsDigits, hand]
  congr 2
  omega

lemma wotsSkAddr_eq (h : Addr.OfWots p kp a) :
    wotsSkAddr a = p.addr addrTypeWotsprf kp 0 0 0 0 0 := by
  obtain ⟨_, _, rfl⟩ := h
  rfl

lemma wotsPkAddr_eq (a : Addr) {b : Addr} (hb : Addr.OfWots p kp b) :
    ((a.setType addrTypeWotspk).copyKeypairAddr b).bytes = p.chainAddr addrTypeWotspk kp 0 0 := by
  obtain ⟨_, _, rfl⟩ := hb
  rfl

lemma map_zipIdx_replicate {α β : Type} (g : ℕ → α → β) (v : α) : ∀ m c : ℕ,
    ((replicate m v).zipIdx c).map (fun x => g x.2 x.1) = (range' c m).map fun c => g c v
  | 0, _ => rfl
  | m + 1, c => by
    rw [replicate_succ, zipIdx_cons, map_cons, map_zipIdx_replicate g v m (c + 1),
      range'_succ, map_cons]

lemma wotsPkGen_returns : Returns (Addr.OfWots p kp) (wotsPkGen H skSeed pkSeed)
    (wotsLeaf H skSeed pkSeed p kp) (Addr.OfWots p kp) := by
  refine Returns.get_bind fun a ha => ?_
  have hdigits : ∀ v ∈ replicate wotsLen (wotsW - 1), v < wotsW := by
    intro v hv
    rw [eq_of_mem_replicate hv]
    decide
  have hchains := wotsDoChains_returns H skSeed pkSeed p kp _ 0 0 hdigits
  rw [← wotsSkAddr_eq ha, map_zipIdx_replicate (wotsPart H skSeed pkSeed p kp)] at hchains
  refine hchains.bind (Returns.get_bind fun b hb => ?_)
  rw [wotsLeaf, ← wotsPkAddr_eq a hb]
  exact Returns.pure _

lemma wotsSign_returns : Returns (Addr.OfWots p kp) (wotsSign H msg skSeed pkSeed)
    (((wotsDigits msg).zipIdx).map fun x => wotsPart H skSeed pkSeed p kp x.2 x.1).flatten
    (Addr.OfWots p kp) := by
  refine Returns.get_bind fun a ha => ?_
  have hchains := wotsDoChains_returns H skSeed pkSeed p kp (wotsDigits msg) 0 0
    fun v hv => wotsDigits_lt hv
  rw [← wotsSkAddr_eq ha] at hchains
  exact hchains

lemma wotsPkFromSig_returns (hmsg : msg.length = n)
    (hsig : ∀ x ∈ (wotsDigits msg).zipIdx, block sig x.2 = wotsPart H skSeed pkSeed p kp x.2 x.1) :
    Returns (Addr.OfWots p kp) (wotsPkFromSig H sig msg pkSeed) (wotsLeaf H skSeed pkSeed p kp)
      (Addr.OfWots p kp) := by
  refine Returns.get_bind fun a ha => ?_
  have hchains := wotsPkFromSigDoChains_returns (wotsDigits msg) 0
    (fun v hv => wotsDigits_lt hv) hsig
  rw [wotsDigits_length hmsg, ← wotsPkFromSig_digits hmsg] at hchains
  refine hchains.bind (Returns.get_bind fun b hb => ?_)
  rw [wotsLeaf, ← wotsPkAddr_eq a hb]
  exact Returns.pure _

lemma treehash_returns : ∀ (z i : ℕ), z ≤ treeHeight → i < 2 ^ (treeHeight - z) →
    Returns (Addr.In p) (treehash H skSeed pkSeed z i) (xmssNode H skSeed pkSeed p z i) (Addr.In p)
  | 0, i, _, hi => by
    refine Returns.check_bind hi ?_
    refine Returns.modify_bind (Q := fun a => a = p.addr addrTypeWots 0 0 0 0 0 0)
      (fun a ha => ha.setType) (Returns.modify_bind (Q := Addr.OfWots p i) ?_ ?_)
    · rintro _ rfl
      exact ⟨0, 0, rfl⟩
    · exact wotsPkGen_returns.mono (fun _ h => h) fun _ h => h.in
  | z + 1, i, hz, hi => by
    have hchild : 2 * i + 1 < 2 ^ (treeHeight - z) := by
      rw [show treeHeight - z = treeHeight - (z + 1) + 1 by omega, pow_succ]
      omega
    refine Returns.check_bind hz (Returns.check_bind hi ?_)
    refine (treehash_returns z (2 * i) (by omega) (by omega)).bind ?_
    refine (treehash_returns z (2 * i + 1) (by omega) hchild).bind ?_
    refine Returns.modify_bind (Q := fun a => a = p.addr addrTypeHashtree 0 0 0 0 0 0)
      (fun a ha => ha.setType) ?_
    refine Returns.modify_bind (Q := fun a =>
      a = p.addr addrTypeHashtree 0 (UInt8.ofNat (z + 1)) 0 0 0 0) ?_ ?_
    · rintro _ rfl
      rfl
    refine Returns.modify_bind (Q := fun a =>
      a = (p.addr addrTypeHashtree 0 (UInt8.ofNat (z + 1)) 0 0 0 0).setTreeIndex i) ?_ ?_
    · rintro _ rfl
      rfl
    · refine (thashH_returns fun a ha => ?_).mono (fun _ h => h) ?_
      · rw [ha]
        rfl
      · rintro _ rfl
        exact ⟨rfl, rfl⟩

lemma setTreeIndex_setTreeHeight {z : ℕ} (h : Addr.Of p type kp a) :
    ((a.setTreeHeight z).setTreeIndex i).bytes = p.treeAddr type kp z i := by
  obtain ⟨_, _, _, _, _, rfl⟩ := h
  rfl

lemma climbLevel_returns {level : ℕ} {odd : Bool} {sibling node : Bytes}
    (hi : i < 2 ^ 32) (hodd : odd = decide (i % 2 ≠ 0)) :
    Returns (Addr.AtIndex p type kp i) (climbLevel H odd sibling pkSeed node level)
      (if i % 2 = 0 then treeComb H pkSeed p type kp (level + 1) (i / 2) node sibling
       else treeComb H pkSeed p type kp (level + 1) (i / 2) sibling node)
      (Addr.AtIndex p type kp (i / 2)) := by
  -- Both branches write the index `j = i / 2` and hash two nodes there.
  have hbranch (f : Addr → ℕ) (input : Bytes) (hf : ∀ a, a.getTreeIndex = i → f a = i / 2) :
      Returns (Addr.AtIndex p type kp i)
        (do modify (Addr.setTreeHeight (level + 1))
            modify fun a => a.setTreeIndex (f a)
            thashH H input pkSeed)
        (H.h input pkSeed (p.treeAddr type kp (level + 1) (i / 2)))
        (Addr.AtIndex p type kp (i / 2)) := by
    rintro a ⟨hof, hindex⟩
    have hindex' : (a.setTreeHeight (level + 1)).getTreeIndex = i := hindex
    refine ⟨(a.setTreeHeight (level + 1)).setTreeIndex (i / 2), ?_,
      (hof.setTreeHeight _).setTreeIndex _, Addr.getTreeIndex_setTreeIndex _ (by omega)⟩
    rw [← setTreeIndex_setTreeHeight hof, ← hf _ hindex']
    rfl
  rw [climbLevel, hodd]
  by_cases h : i % 2 = 0
  · simp only [h, ne_eq, not_true_eq_false, decide_false, if_true, treeComb]
    exact hbranch (fun a => a.getTreeIndex / 2) _ fun a ha => by rw [ha]
  · simp only [h, ne_eq, not_false_eq_true, decide_true, if_false, Bool.true_eq_false, treeComb]
    refine hbranch (fun a => (a.getTreeIndex + (2 ^ 32 - 1)) % 2 ^ 32 / 2) _ fun a ha => ?_
    omega

lemma climbLevels_returns {odd : ℕ → Bool} (auth : ℕ → Bytes) (x : Bytes)
    (hi : i < 2 ^ 32) (hodd : ∀ k < m, odd k = decide (i / 2 ^ k % 2 ≠ 0)) :
    Returns (Addr.AtIndex p type kp i)
      ((range m).foldlM (fun node k => climbLevel H (odd k) (auth k) pkSeed node k) x)
      (Merkle.climb (treeComb H pkSeed p type kp) auth i x m) (Addr.Of p type kp) := by
  have hloop := Returns.foldlM_range
    (f := fun node k => climbLevel H (odd k) (auth k) pkSeed node k)
    (Merkle.climb (treeComb H pkSeed p type kp) auth i x)
    (fun k => Addr.AtIndex p type kp (i / 2 ^ k)) m fun k hk => by
      rw [Merkle.climb, pow_succ, ← Nat.div_div_eq_div_mul]
      exact climbLevel_returns ((Nat.div_le_self i (2 ^ k)).trans_lt hi) (hodd k hk)
  rw [pow_zero, Nat.div_one] at hloop
  exact hloop.mono (fun _ h => h) fun _ h => h.1

lemma drop_flatten (rest : Bytes) : ∀ {bs : List Bytes} {i : ℕ},
    (∀ b ∈ bs, b.length = m) → bs[i]? = some b →
    ∃ rest', (bs.flatten ++ rest).drop (i * m) = b ++ rest'
  | [], _, _, h => by simp at h
  | b' :: bs, 0, _, h => by
    obtain rfl : b' = b := by simpa using h
    exact ⟨bs.flatten ++ rest, by simp⟩
  | b' :: bs, i + 1, hlen, h => by
    obtain ⟨rest', hrest⟩ := drop_flatten rest
      (fun x hx => hlen x (mem_cons_of_mem b' hx)) (by simpa using h : bs[i]? = some b)
    have hdrop : (i + 1) * m = b'.length + i * m := by rw [hlen b' mem_cons_self]; ring
    refine ⟨rest', ?_⟩
    rw [hdrop, flatten_cons, append_assoc, drop_length_add_append, hrest]

lemma block_flatten {rest : Bytes} (hlen : ∀ b ∈ bs, b.length = n)
    (hi : bs[i]? = some b) : block (bs.flatten ++ rest) i = b := by
  obtain ⟨rest', hrest⟩ := drop_flatten rest hlen hi
  rw [block, hrest, ← hlen b (mem_of_getElem? hi), take_left]

lemma flatten_length (h : ∀ b ∈ bs, b.length = m) : bs.flatten.length = m * bs.length := by
  induction bs with
  | nil => rfl
  | cons b bs ih =>
    grind

section Xmss

variable (H skSeed pkSeed p) (msg : Bytes) (idx : ℕ)

def wotsParts : List Bytes :=
  (wotsDigits msg).zipIdx.map fun x => wotsPart H skSeed pkSeed p idx x.2 x.1

def xmssAuth : List Bytes :=
  (range treeHeight).map fun j => xmssNode H skSeed pkSeed p j (idx / 2 ^ j ^^^ 1)

/-- The XMSS signature with key pair `idx` of the tree of a place. -/
def xmssSig : Bytes :=
  (wotsParts H skSeed pkSeed p msg idx).flatten ++ (xmssAuth H skSeed pkSeed p idx).flatten

end Xmss

variable {msg : Bytes} {idx : ℕ}

lemma length_of_mem_wotsParts (hb : b ∈ wotsParts H skSeed pkSeed p msg idx) : b.length = n := by
  obtain ⟨x, -, rfl⟩ := List.mem_map.mp hb
  exact wotsPart_length _ _ _

lemma node_length {leaf : ℕ → Bytes} {comb : ℕ → ℕ → Bytes → Bytes → Bytes}
    (hleaf : ∀ i, (leaf i).length = n) (hcomb : ∀ z i l r, (comb z i l r).length = n) (z i : ℕ) :
    (Merkle.node leaf comb z i).length = n := by
  cases z with
  | zero => exact hleaf i
  | succ z => exact hcomb _ _ _ _

lemma xmssNode_length (z i : ℕ) : (xmssNode H skSeed pkSeed p z i).length = n :=
  node_length (fun _ => H.tl_length _ _ _) (fun _ _ _ _ => H.h_length _ _ _) z i

lemma length_of_mem_xmssAuth (hb : b ∈ xmssAuth H skSeed pkSeed p idx) : b.length = n := by
  obtain ⟨j, -, rfl⟩ := List.mem_map.mp hb
  exact xmssNode_length _ _

lemma wotsParts_flatten_length (hmsg : msg.length = n) :
    (wotsParts H skSeed pkSeed p msg idx).flatten.length = wotsBytes := by
  rw [flatten_length fun b hb => length_of_mem_wotsParts hb, wotsParts, length_map,
    length_zipIdx, wotsDigits_length hmsg]
  rfl

lemma xmssSig_length (hmsg : msg.length = n) :
    (xmssSig H skSeed pkSeed p msg idx).length = xmssBytes := by
  rw [xmssSig, length_append, wotsParts_flatten_length hmsg,
    flatten_length fun b hb => length_of_mem_xmssAuth hb, xmssAuth, length_map,
    length_range, xmssBytes]

lemma sibling_lt {h j : ℕ} (hi : i < 2 ^ h) (hj : j < h) : i / 2 ^ j ^^^ 1 < 2 ^ (h - j) := by
  have hdiv : i / 2 ^ j < 2 ^ (h - j) := by
    rw [Nat.div_lt_iff_lt_mul (by positivity), ← pow_add, Nat.sub_add_cancel hj.le]
    exact hi
  exact Nat.xor_lt_two_pow hdiv (Nat.one_lt_two_pow (by omega))

lemma xmssSign_returns (hidx : idx < 2 ^ treeHeight) :
    Returns (Addr.In p) (xmssSign H msg idx skSeed pkSeed) (xmssSig H skSeed pkSeed p msg idx)
      (Addr.In p) := by
  have hauth : Returns (Addr.In p)
      ((range treeHeight).mapM fun j => treehash H skSeed pkSeed j ((idx >>> j) ^^^ 1))
      (xmssAuth H skSeed pkSeed p idx) (Addr.In p) := by
    refine Returns.mapM _ fun j hj => ?_
    have hj := mem_range.mp hj
    rw [Nat.shiftRight_eq_div_pow]
    exact treehash_returns j _ hj.le (sibling_lt hidx hj)
  refine hauth.bind ?_
  refine Returns.modify_bind (Q := fun a => a = p.addr addrTypeWots 0 0 0 0 0 0)
    (fun a ha => ha.setType) (Returns.modify_bind (Q := Addr.OfWots p idx) ?_ ?_)
  · rintro _ rfl
    exact ⟨0, 0, rfl⟩
  · exact (wotsSign_returns.mono (fun _ h => h) fun _ h => h.in).bind (Returns.pure _)

lemma xmssPkFromSig_returns (hmsg : msg.length = n) (hidx : idx < 2 ^ treeHeight) (rest : Bytes) :
    Returns (Addr.In p)
      (xmssPkFromSig H (xmssSig H skSeed pkSeed p msg idx ++ rest) idx msg pkSeed)
      (xmssNode H skSeed pkSeed p treeHeight 0) (Addr.In p) := by
  have hlt : idx < 2 ^ 32 := hidx.trans (by decide)
  rw [xmssSig, append_assoc]
  refine Returns.modify_bind (Q := fun a => a = p.addr addrTypeWots 0 0 0 0 0 0)
    (fun a ha => ha.setType) (Returns.modify_bind (Q := Addr.OfWots p idx) ?_ ?_)
  · rintro _ rfl
    exact ⟨0, 0, rfl⟩
  refine Returns.bind (v := wotsLeaf H skSeed pkSeed p idx)
    (wotsPkFromSig_returns hmsg fun x hx => ?_) ?_
  · refine block_flatten (fun b hb => length_of_mem_wotsParts hb) ?_
    rw [wotsParts, getElem?_map, getElem?_zipIdx, zero_add, mem_zipIdx_iff_getElem?.mp hx]
    rfl
  refine Returns.modify_bind (Q := fun a => a = p.addr addrTypeHashtree 0 0 0 0 0 0)
    (fun a ha => ha.in.setType) ?_
  refine Returns.modify_bind (Q := Addr.AtIndex p addrTypeHashtree 0 idx) ?_ ?_
  · rintro _ rfl
    exact ⟨⟨_, _, _, _, _, rfl⟩, Addr.getTreeIndex_setTreeIndex _ hlt⟩
  rw [← wotsParts_flatten_length hmsg, drop_left]
  have hroot : Merkle.climb (treeComb H pkSeed p addrTypeHashtree 0)
      (block ((xmssAuth H skSeed pkSeed p idx).flatten ++ rest)) idx
      (wotsLeaf H skSeed pkSeed p idx) treeHeight
      = xmssNode H skSeed pkSeed p treeHeight 0 := by
    rw [Merkle.climb_eq_node, Nat.div_eq_of_lt hidx]
    · rfl
    · intro j hj
      refine block_flatten (fun b hb => length_of_mem_xmssAuth hb) ?_
      rw [xmssAuth, getElem?_map, getElem?_range hj]
      rfl
  rw [← hroot]
  refine (climbLevels_returns _ _ hlt fun k _ => ?_).mono (fun _ h => h) fun _ h => h.in
  rw [Nat.shiftRight_eq_div_pow, Nat.and_one_is_mod]

lemma xmssPkFromSig_xmssSig (hmsg : msg.length = n) (hidx : idx < 2 ^ treeHeight) :
    Returns (Addr.In p) (xmssPkFromSig H (xmssSig H skSeed pkSeed p msg idx) idx msg pkSeed)
      (xmssNode H skSeed pkSeed p treeHeight 0) (Addr.In p) := by
  rw [← List.append_nil (xmssSig H skSeed pkSeed p msg idx)]
  exact xmssPkFromSig_returns hmsg hidx []

end BoringSSL.SlhDsa
