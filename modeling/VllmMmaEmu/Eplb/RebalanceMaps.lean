import Mathlib.Algebra.BigOperators.Ring.Finset
import VllmMmaEmu.Eplb.Packing

/-!
# The maps are consistent

The two packings permute experts, the replication numbers them within each node, and the
views put the nodes side by side. The composition is an exact numbering of the replicas, and
the three maps of `rebalance_experts` are read off it.
-/

namespace Eplb

open Python Torch Numbering

variable {W : Type} {T : FloatOps W}

section Indexes

variable {rows cols : Nat}

lemma slotNumbers_ofFn (a b : Nat → Nat → Nat) (k : Nat) :
    slotNumbers (Tensor.ofFn rows cols fun i j => (a i j : Int))
      (Tensor.ofFn rows cols fun i j => (b i j : Int)) k =
      Tensor.ofFn rows cols fun i j => ((a i j * k + b i j : Nat) : Int) := by
  simp only [slotNumbers, Tensor.ofFn_rows, Tensor.ofFn_cols]
  refine Tensor.ofFn_congr fun i hi j hj => ?_
  rw [Tensor.get_ofFn hi hj, Tensor.get_ofFn hi hj]
  push_cast
  rfl

lemma expandGroups_ofFn (a : Nat → Nat → Nat) (k : Nat) :
    expandGroups (Tensor.ofFn rows cols fun i j => (a i j : Int)) k =
      Tensor.ofFn rows (cols * k) fun i j => ((a i (j / k) * k + j % k : Nat) : Int) := by
  simp only [expandGroups, Tensor.ofFn_rows, Tensor.ofFn_cols]
  refine Tensor.ofFn_congr fun i hi j hj => ?_
  rw [Tensor.get_ofFn hi (div_lt_blocks hj)]
  push_cast
  rfl

/-- The inverse of rows that are permutations, whatever memory it starts from. -/
lemma inverse_spec {σ : Nat → Nat → Nat}
    (hσ : ∀ i < rows, Set.BijOn (σ i) (Finset.range cols) (Finset.range cols)) :
    ∃ τ : Nat → Nat → Nat, inverse T (Tensor.ofFn rows cols fun i j => (σ i j : Int)) =
        .ok (Tensor.ofFn rows cols fun i j => (τ i j : Int)) ∧
      ∀ i < rows, (∀ j < cols, τ i (σ i j) = j) ∧ ∀ k < cols, τ i k < cols ∧ σ i (τ i k) = k := by
  have hlt : ∀ i < rows, ∀ j < cols, σ i j < cols := fun i hi j hj => by
    simpa using (hσ i hi).mapsTo (by simpa using hj)
  have hinj : ∀ i < rows, ∀ j < cols, ∀ j' < cols, σ i j = σ i j' → j = j' :=
    fun i hi j hj j' hj' heq => (hσ i hi).injOn (by simpa using hj) (by simpa using hj') heq
  have hsurj : ∀ i < rows, ∀ k < cols, ∃ j < cols, σ i j = k := fun i hi k hk => by
    simpa using (hσ i hi).surjOn (show k ∈ _ by simpa using hk)
  obtain ⟨out, hrun, hout, -⟩ := Tensor.scatter_ofFn T.empty (fun _ j => (j : Int)) hlt hinj
  refine ⟨fun i k => (out i k).toNat, ?_, fun i hi => ⟨fun j hj => ?_, fun k hk => ?_⟩⟩
  · rw [inverse, Tensor.ofFn_rows, Tensor.ofFn_cols, hrun]
    refine congrArg Except.ok (Tensor.ofFn_congr fun i hi k hk => ?_)
    obtain ⟨j, hj, rfl⟩ := hsurj i hi k hk
    simp only [hout i hi j hj, Int.toNat_natCast]
  · simp only [hout i hi j hj, Int.toNat_natCast]
  · obtain ⟨j, hj, rfl⟩ := hsurj i hi k hk
    simp only [hout i hi j hj, Int.toNat_natCast]
    exact ⟨hj, trivial⟩

lemma addNodeOffsets_ofFn {layers nodes : Nat} (hlayers : 0 < layers) (hnodes : 0 < nodes)
    (a : Nat → Nat → Nat) (step : Nat) :
    addNodeOffsets (Tensor.ofFn (layers * nodes) cols fun i j => (a i j : Int)) layers nodes step =
      .ok (Tensor.ofFn layers (nodes * cols) fun l p =>
        ((p / cols * step + a (l * nodes + p / cols) (p % cols) : Nat) : Int)) := by
  have hview : (Tensor.ofFn (layers * nodes) cols fun i j => (a i j : Int)).viewRows
      (layers * nodes) = .ok (Tensor.ofFn (layers * nodes) cols fun i j => (a i j : Int)) := by
    rw [Tensor.viewRows_join (Nat.mul_pos hlayers hnodes) (Nat.mul_one _).symm, Nat.one_mul]
    refine congrArg Except.ok (Tensor.ofFn_congr fun i _ j hj => ?_)
    rw [Nat.mul_one, Nat.div_eq_of_lt hj, Nat.add_zero, Nat.mod_eq_of_lt hj]
  rw [addNodeOffsets, hview, ok_bind]
  simp only [Tensor.ofFn_rows, Tensor.ofFn_cols]
  rw [Tensor.viewRows_join hlayers rfl]
  refine congrArg Except.ok (Tensor.ofFn_congr fun l hl p hp => ?_)
  have hnode := div_lt_blocks hp
  rw [Tensor.get_ofFn (block_lt hl hnode) (mod_lt_block hp), block_mod hnode]
  push_cast
  ring

end Indexes

section Hierarchical

variable [Inhabited W] {layers nodes groupsPerNode groupSize gpusPerNode perGpu : Nat}

/-- Step 1 gives every node the same number of whole groups. -/
lemma packGroups_spec (layers groupsPerNode groupSize : Nat) (hnodes : 0 < nodes) (f : Nat → Nat → W) :
    ∃ (packed : Tensor Int × Tensor Int) (node mlog log : Nat → Nat → Nat),
      balancedPacking T (Tensor.ofFn layers (nodes * groupsPerNode) f) nodes = .ok packed ∧
      expandGroups (slotNumbers packed.1 packed.2 groupsPerNode) groupSize =
        (Tensor.ofFn layers (nodes * groupsPerNode * groupSize) fun l e => (mlog l e : Int)) ∧
      inverse T (Tensor.ofFn layers (nodes * groupsPerNode * groupSize)
        fun l e => (mlog l e : Int)) =
        .ok (Tensor.ofFn layers (nodes * groupsPerNode * groupSize) fun l e => (log l e : Int)) ∧
      ∀ l < layers,
        (∀ e < nodes * groupsPerNode * groupSize,
          mlog l e < nodes * groupsPerNode * groupSize ∧ log l (mlog l e) = e ∧
          mlog l e / (groupsPerNode * groupSize) = node l (e / groupSize)) ∧
        (∀ m < nodes * groupsPerNode * groupSize,
          log l m < nodes * groupsPerNode * groupSize ∧ mlog l (log l m) = m) ∧
        ∀ g < nodes * groupsPerNode, node l g < nodes := by
  obtain ⟨node, rank, hpack, hexact⟩ := balancedPacking_spec (T := T) hnodes rfl f
  have hbij : ∀ l < layers, Set.BijOn
      (fun e => (node l (e / groupSize) * groupsPerNode + rank l (e / groupSize)) * groupSize +
        e % groupSize) (Finset.range (nodes * groupsPerNode * groupSize))
      (Finset.range (nodes * groupsPerNode * groupSize)) :=
    fun l hl => bijOn_expand (hexact l hl).bijOn_blocks
  obtain ⟨log, hinv, hlog⟩ := inverse_spec (T := T) hbij
  refine ⟨_, node, _, log, hpack, ?_, hinv, fun l hl => ⟨fun e he => ?_, (hlog l hl).2,
    fun g hg => ?_⟩⟩
  · rw [slotNumbers_ofFn, expandGroups_ofFn]
  · have hmlog := (hbij l hl).mapsTo (show e ∈ _ by simpa using he)
    refine ⟨by simpa using hmlog, (hlog l hl).1 e he, ?_⟩
    have hrank := (hexact l hl).rank_lt (Finset.mem_range.mpr (div_lt_blocks he))
    rw [Nat.mul_comm groupsPerNode, ← Nat.div_div_eq_div_mul, block_div (mod_lt_block he),
      block_div hrank]
  · exact Finset.mem_range.mp ((hexact l hl).label_mem (Finset.mem_range.mpr hg))

lemma packGpus_spec (rows perGpu : Nat) (hgpus : 0 < gpusPerNode) (f : Nat → Nat → W) :
    ∃ (packed : Tensor Int × Tensor Int) (pphy phy : Nat → Nat → Nat),
      balancedPacking T (Tensor.ofFn rows (gpusPerNode * perGpu) f) gpusPerNode = .ok packed ∧
      slotNumbers packed.1 packed.2 perGpu =
        (Tensor.ofFn rows (gpusPerNode * perGpu) fun i p => (pphy i p : Int)) ∧
      inverse T (Tensor.ofFn rows (gpusPerNode * perGpu) fun i p => (pphy i p : Int)) =
        .ok (Tensor.ofFn rows (gpusPerNode * perGpu) fun i p => (phy i p : Int)) ∧
      ∀ i < rows, Set.BijOn (phy i) (Finset.range (gpusPerNode * perGpu))
        (Finset.range (gpusPerNode * perGpu)) := by
  obtain ⟨gpu, rank, hpack, hexact⟩ := balancedPacking_spec (T := T) hgpus rfl f
  have hbij : ∀ i < rows, Set.BijOn (fun p => gpu i p * perGpu + rank i p)
      (Finset.range (gpusPerNode * perGpu)) (Finset.range (gpusPerNode * perGpu)) :=
    fun i hi => (hexact i hi).bijOn_blocks
  obtain ⟨phy, hinv, hphy⟩ := inverse_spec (T := T) hbij
  refine ⟨_, _, phy, hpack, slotNumbers_ofFn .., hinv, fun i hi => ⟨?_, ?_, ?_⟩⟩
  · intro k hk
    simpa using ((hphy i hi).2 k (by simpa using hk)).1
  · intro k hk k' hk' heq
    have h := ((hphy i hi).2 k (by simpa using hk)).2
    have h' := ((hphy i hi).2 k' (by simpa using hk')).2
    rw [← h, ← h', heq]
  · intro p hp
    have hlt := (hbij i hi).mapsTo hp
    exact ⟨_, hlt, (hphy i hi).1 p (by simpa using hp)⟩

/-- The replicas are numbered under their logical experts, and the experts of a group have
them all on the group's node. -/
structure Balanced (experts replicas groupSize perNode nodes groups : Nat)
    (label rank cnt node : Nat → Nat) : Prop where
  exact : Exact (Finset.range replicas) (Finset.range experts) label rank cnt
  pos : ∀ e < experts, 0 < cnt e
  node_lt : ∀ g < groups, node g < nodes
  onNode : ∀ p < replicas, p / perNode = node (label p / groupSize)

lemma hierarchical_spec (hlayers : 0 < layers) (hnodes : 0 < nodes) (hgpus : 0 < gpusPerNode)
    (hmlog : 0 < groupsPerNode * groupSize)
    (hle : groupsPerNode * groupSize ≤ gpusPerNode * perGpu)
    (f : Nat → Nat → W) :
    ∃ label rank cnt node : Nat → Nat → Nat, rebalanceExpertsHierarchical T
        (Tensor.ofFn layers (nodes * groupsPerNode * groupSize) f)
        (nodes * gpusPerNode * perGpu) (nodes * groupsPerNode) nodes (nodes * gpusPerNode) =
        .ok (Tensor.ofFn layers (nodes * gpusPerNode * perGpu) fun l p => (label l p : Int),
          Tensor.ofFn layers (nodes * gpusPerNode * perGpu) fun l p => (rank l p : Int),
          Tensor.ofFn layers (nodes * groupsPerNode * groupSize) fun l e => (cnt l e : Int)) ∧
      ∀ l < layers, Balanced (nodes * groupsPerNode * groupSize) (nodes * gpusPerNode * perGpu)
        groupSize (gpusPerNode * perGpu) nodes (nodes * groupsPerNode) (label l) (rank l) (cnt l)
        (node l) := by
  have hgroups : 0 < groupsPerNode := Nat.pos_of_mul_pos_right hmlog
  have hsize : 0 < groupSize := Nat.pos_of_mul_pos_left hmlog
  have hgroups' : 0 < nodes * groupsPerNode := Nat.mul_pos hnodes hgroups
  have hgpus' : 0 < nodes * gpusPerNode := Nat.mul_pos hnodes hgpus
  have hexperts : nodes * groupsPerNode * groupSize = nodes * (groupsPerNode * groupSize) :=
    Nat.mul_assoc ..
  have hreplicas : nodes * gpusPerNode * perGpu = nodes * (gpusPerNode * perGpu) :=
    Nat.mul_assoc ..
  have hperNode : nodes * groupsPerNode * groupSize / nodes = groupsPerNode * groupSize := by
    rw [hexperts, Nat.mul_div_cancel_left _ hnodes]
  have hphyPerNode : nodes * gpusPerNode * perGpu / nodes = gpusPerNode * perGpu := by
    rw [hreplicas, Nat.mul_div_cancel_left _ hnodes]
  -- step 1
  obtain ⟨packed, node, mlog, log, hpack, hmlogs, hinverse, hgroup⟩ :=
    packGroups_spec (T := T) layers groupsPerNode groupSize hnodes fun i g =>
      T.sum ((List.range groupSize).map fun o =>
        (Tensor.ofFn layers (nodes * groupsPerNode * groupSize) f).get i (g * groupSize + o))
  have hlog : ∀ l < layers, ∀ m < nodes * groupsPerNode * groupSize,
      log l m < nodes * groupsPerNode * groupSize := fun l hl m hm => ((hgroup l hl).2.1 m hm).1
  have hmlog' : ∀ l < layers, ∀ e < nodes * groupsPerNode * groupSize,
      mlog l e < nodes * groupsPerNode * groupSize := fun l hl e he => ((hgroup l hl).1 e he).1
  -- step 2
  let tokens : Nat → Nat → W := fun i j =>
    f (i / nodes) (log (i / nodes) (i % nodes * (groupsPerNode * groupSize) + j))
  obtain ⟨label, rank, cnt, hreplicate, hnumbered⟩ :=
    replicateExperts_spec (T := T) (layers * nodes) hmlog hle tokens
  have hlabel : ∀ i < layers * nodes, ∀ p < gpusPerNode * perGpu,
      label i p < groupsPerNode * groupSize := fun i hi p hp =>
    Finset.mem_range.mp ((hnumbered i hi).1.label_mem (Finset.mem_range.mpr hp))
  -- step 3
  let loads : Nat → Nat → W := fun i j =>
    T.div ((Tensor.ofFn (layers * nodes) (groupsPerNode * groupSize) tokens).get i j)
      ((Tensor.ofFn (layers * nodes) (groupsPerNode * groupSize) fun i e => (cnt i e : Int)).get i j)
  obtain ⟨packed', pphy, phy, hpack', hpphys, hinverse', hphy⟩ :=
    packGpus_spec (T := T) (layers * nodes) perGpu hgpus fun i p => loads i (label i p)
  have hphylt : ∀ i < layers * nodes, ∀ p < gpusPerNode * perGpu, phy i p < gpusPerNode * perGpu :=
    fun i hi p hp => by simpa using (hphy i hi).mapsTo (show p ∈ _ by simpa using hp)
  have hshift : ∀ l < layers, ∀ p < nodes * (gpusPerNode * perGpu),
      p / (gpusPerNode * perGpu) * (groupsPerNode * groupSize) +
        label (l * nodes + p / (gpusPerNode * perGpu))
          (phy (l * nodes + p / (gpusPerNode * perGpu)) (p % (gpusPerNode * perGpu))) <
        nodes * (groupsPerNode * groupSize) := by
    intro l hl p hp
    have hrow := block_lt hl (div_lt_blocks hp)
    exact block_lt (div_lt_blocks hp) (hlabel _ hrow _ (hphylt _ hrow _ (mod_lt_block hp)))
  rw [← hexperts] at hshift
  refine ⟨fun l p => log l (p / (gpusPerNode * perGpu) * (groupsPerNode * groupSize) +
        label (l * nodes + p / (gpusPerNode * perGpu))
          (phy (l * nodes + p / (gpusPerNode * perGpu)) (p % (gpusPerNode * perGpu)))),
    fun l p => rank (l * nodes + p / (gpusPerNode * perGpu))
      (phy (l * nodes + p / (gpusPerNode * perGpu)) (p % (gpusPerNode * perGpu))),
    fun l e => cnt (l * nodes + mlog l e / (groupsPerNode * groupSize))
      (mlog l e % (groupsPerNode * groupSize)), node, ?_, fun l hl => ?_⟩
  · simp only [rebalanceExpertsHierarchical, Tensor.ofFn_rows, Tensor.ofFn_cols,
      pyMod_of_dvd hgroups' (Dvd.intro _ rfl), pyMod_of_dvd hnodes (Dvd.intro _ rfl),
      pyMod_of_dvd hgpus' (Dvd.intro _ rfl), ok_bind, pyAssert, if_true,
      Nat.mul_div_cancel_left _ hgroups', Nat.mul_div_cancel_left _ hnodes,
      Nat.mul_div_cancel_left _ hgpus', hperNode, hphyPerNode, sumGroups]
    rw [hpack, ok_bind, hmlogs, hinverse, ok_bind, Tensor.gather_ofFn hlog, ok_bind,
      Tensor.viewCols_split hmlog hexperts, ok_bind, hreplicate, ok_bind]
    simp only [Tensor.ofFn_rows, Tensor.ofFn_cols]
    rw [Tensor.gather_ofFn hlabel, ok_bind, hpack', ok_bind, hpphys, hinverse', ok_bind,
      Tensor.gather_ofFn hphylt, ok_bind, addNodeOffsets_ofFn hlayers hnodes, ok_bind,
      Tensor.gather_ofFn hshift, ok_bind, Tensor.gather_ofFn hphylt, ok_bind,
      Tensor.viewRows_join hlayers rfl, ok_bind, Tensor.viewRows_join hlayers rfl, ok_bind,
      ← hexperts, Tensor.gather_ofFn hmlog', ok_bind, hreplicas]
  · have hnode : ∀ ν < nodes, l * nodes + ν < layers * nodes := fun ν hν => block_lt hl hν
    have hblocks := Exact.sideBySide fun ν hν =>
      (hnumbered _ (hnode ν hν)).1.comp (hphy _ (hnode ν hν))
    rw [← hexperts, ← hreplicas] at hblocks
    have hall := hblocks.relabel (F := Finset.range (nodes * groupsPerNode * groupSize))
      (f := log l) (g := mlog l) (fun m hm => by simpa using hlog l hl m (by simpa using hm))
      (fun e he => by simpa using hmlog' l hl e (by simpa using he))
      (fun m hm => ((hgroup l hl).2.1 m (by simpa using hm)).2)
      (fun e he => ((hgroup l hl).1 e (by simpa using he)).2.1)
    refine ⟨hall, fun e he => ?_, (hgroup l hl).2.2, fun p hp => ?_⟩
    · have hlt := hmlog' l hl e he
      rw [hexperts] at hlt
      exact (hnumbered _ (hnode _ (div_lt_blocks hlt))).2 _ (mod_lt_block hlt)
    · rw [hreplicas] at hp
      have hrow := block_lt hl (div_lt_blocks hp)
      have hlab := hlabel _ hrow _ (hphylt _ hrow _ (mod_lt_block hp))
      have hm := hshift l hl p hp
      rw [← ((hgroup l hl).1 _ (hlog l hl _ hm)).2.2, ((hgroup l hl).2.1 _ hm).2, block_div hlab]

end Hierarchical

namespace ExpertMaps

variable (m : ExpertMaps) (layers experts replicas layer : Nat)

structure HasShape : Prop where
  phy2log : m.phy2log.rows = layers ∧ m.phy2log.cols = replicas
  log2phy : m.log2phy.rows = layers ∧ m.log2phy.cols = experts * m.maxlogcnt
  logcnt : m.logcnt.rows = layers ∧ m.logcnt.cols = experts

/-- The slots that hold expert `e`. -/
def slotsOf (e : Nat) : Set Int := {q | ∃ p : Nat, p < replicas ∧ m.phy2log.get layer p = e ∧ q = p}

/-- In one layer the maps say the same about every expert's replicas. -/
structure Consistent : Prop where
  logcnt_pos : ∀ e < experts, 1 ≤ m.logcnt.get layer e
  logcnt_le : ∀ e < experts, m.logcnt.get layer e ≤ m.maxlogcnt
  logcnt_sum : ∑ e ∈ Finset.range experts, m.logcnt.get layer e = replicas
  phy2log_range : ∀ p < replicas, 0 ≤ m.phy2log.get layer p ∧ m.phy2log.get layer p < experts
  logcnt_eq : ∀ e < experts, m.logcnt.get layer e =
    ((Finset.range replicas).filter fun p => m.phy2log.get layer p = e).card
  replicas : ∀ e < experts, Set.BijOn (fun r : Nat => m.replica layer e r)
    {r | (r : Int) < m.logcnt.get layer e} (m.slotsOf replicas layer e)
  unused : ∀ e < experts, ∀ r < m.maxlogcnt, m.logcnt.get layer e ≤ r → m.replica layer e r = -1

/-- The node of the GPU that holds slot `p`. -/
def nodeOfSlot (replicas numGpus numNodes p : Nat) : Nat :=
  p / (replicas / numGpus) / (numGpus / numNodes)

/-- The replicas of the experts of one group lie on the GPUs of one node. -/
def GroupsOnNodes (numGroups numNodes numGpus : Nat) : Prop :=
  ∀ g < numGroups, ∃ node < numNodes, ∀ p < replicas,
    m.phy2log.get layer p / (experts / numGroups : Nat) = g →
      nodeOfSlot replicas numGpus numNodes p = node

lemma nodeOfSlot_eq {replicas numGpus numNodes p : Nat} (hgpuspos : 0 < numGpus)
    (hnodespos : 0 < numNodes) (hgpus : numGpus ∣ replicas) (hnodes : numNodes ∣ numGpus) :
    nodeOfSlot replicas numGpus numNodes p = p / (replicas / numNodes) := by
  obtain ⟨gpusPerNode, rfl⟩ := hnodes
  obtain ⟨perGpu, rfl⟩ := hgpus
  rw [nodeOfSlot, Nat.mul_div_cancel_left _ hgpuspos, Nat.mul_div_cancel_left _ hnodespos,
    Nat.div_div_eq_div_mul, Nat.mul_assoc numNodes, Nat.mul_div_cancel_left _ hnodespos,
    Nat.mul_comm perGpu]

variable {m layers experts replicas layer}

/-- Maps that hold an exact numbering, with `log2phy` its inverse, are consistent. -/
lemma readMaps {label rank cnt : Nat → Nat}
    (hexact : Exact (Finset.range replicas) (Finset.range experts) label rank cnt)
    (hpos : ∀ e < experts, 0 < cnt e) (hcnt : ∀ e < experts, cnt e ≤ m.maxlogcnt)
    (hphy2log : ∀ p < replicas, m.phy2log.get layer p = label p)
    (hlogcnt : ∀ e < experts, m.logcnt.get layer e = cnt e)
    (hreplica : ∀ p < replicas, m.replica layer (label p) (rank p) = p)
    (hunused : ∀ e < experts, ∀ r < m.maxlogcnt,
      (∀ p < replicas, label p * m.maxlogcnt + rank p ≠ e * m.maxlogcnt + r) →
        m.replica layer e r = -1) :
    m.Consistent experts replicas layer := by
  have hslot : ∀ e < experts, ∀ r : Nat, (r : Int) < m.logcnt.get layer e →
      ∃ p < replicas, label p = e ∧ rank p = r := by
    intro e he r hr
    rw [hlogcnt e he] at hr
    obtain ⟨p, hp, h⟩ := hexact.exists_slot (Finset.mem_range.mpr he) (by exact_mod_cast hr)
    exact ⟨p, Finset.mem_range.mp hp, h⟩
  refine ⟨fun e he => ?_, fun e he => ?_, ?_, fun p hp => ?_, fun e he => ?_,
    fun e he => ⟨?_, ?_, ?_⟩, fun e he r hr hle => ?_⟩
  · rw [hlogcnt e he]
    exact_mod_cast hpos e he
  · rw [hlogcnt e he]
    exact_mod_cast hcnt e he
  · have hsum := hexact.sum_cnt
    rw [Finset.card_range] at hsum
    rw [← hsum, Nat.cast_sum]
    exact Finset.sum_congr rfl fun e he => hlogcnt e (Finset.mem_range.mp he)
  · have := Finset.mem_range.mp (hexact.label_mem (Finset.mem_range.mpr hp))
    rw [hphy2log p hp]
    omega
  · rw [hlogcnt e he, ← hexact.card_label (Finset.mem_range.mpr he)]
    refine congrArg (fun s : Finset Nat => (s.card : Int)) (Finset.filter_congr fun p hp => ?_)
    rw [hphy2log p (Finset.mem_range.mp hp), Nat.cast_inj]
  · intro r hr
    obtain ⟨p, hp, rfl, rfl⟩ := hslot e he r hr
    exact ⟨p, hp, hphy2log p hp, hreplica p hp⟩
  · intro r hr r' hr' heq
    obtain ⟨p, hp, rfl, rfl⟩ := hslot e he r hr
    obtain ⟨q, hq, hl, rfl⟩ := hslot _ he r' hr'
    have hq' := hreplica q hq
    rw [hl] at hq'
    simp only [hreplica p hp, hq', Nat.cast_inj] at heq
    rw [heq]
  · rintro q ⟨p, hp, hl, rfl⟩
    rw [hphy2log p hp, Nat.cast_inj] at hl
    subst hl
    refine ⟨rank p, ?_, hreplica p hp⟩
    rw [Set.mem_ofPred_eq, hlogcnt _ he]
    exact_mod_cast hexact.rank_lt (Finset.mem_range.mpr hp)
  · refine hunused e he r hr fun p hp heq => ?_
    have hrank := (hexact.rank_lt (Finset.mem_range.mpr hp)).trans_le
      (hcnt _ (Finset.mem_range.mp (hexact.label_mem (Finset.mem_range.mpr hp))))
    have hdiv := congrArg (· / m.maxlogcnt) heq
    have hmod := congrArg (· % m.maxlogcnt) heq
    simp only [block_div hrank, block_div hr] at hdiv
    simp only [block_mod hrank, block_mod hr] at hmod
    have hlt := hexact.rank_lt (Finset.mem_range.mpr hp)
    rw [hlogcnt e he] at hle
    rw [hdiv, hmod] at hlt
    omega

lemma fillLog2phy_spec {label rank cnt : Nat → Nat → Nat} (hlayers : 0 < layers)
    (hexact : ∀ l < layers,
      Exact (Finset.range replicas) (Finset.range experts) (label l) (rank l) (cnt l))
    (hpos : ∀ l < layers, ∀ e < experts, 0 < cnt l e) :
    ∃ log2phy, fillLog2phy (Tensor.ofFn layers replicas fun l p => (label l p : Int))
        (Tensor.ofFn layers replicas fun l p => (rank l p : Int)) layers experts
        (replicas - experts + 1) = .ok log2phy ∧
      HasShape ⟨Tensor.ofFn layers replicas fun l p => (label l p : Int), log2phy,
        Tensor.ofFn layers experts fun l e => (cnt l e : Int), replicas - experts + 1⟩
        layers experts replicas ∧
      ∀ l < layers, Consistent ⟨Tensor.ofFn layers replicas fun l p => (label l p : Int), log2phy,
        Tensor.ofFn layers experts fun l e => (cnt l e : Int), replicas - experts + 1⟩
        experts replicas l := by
  have hcnt : ∀ l < layers, ∀ e < experts, cnt l e ≤ replicas - experts + 1 := by
    intro l hl e he
    have := (hexact l hl).cnt_le (fun k hk => hpos l hl k (Finset.mem_range.mp hk))
      (Finset.mem_range.mpr he)
    simpa using this
  have hlabel : ∀ l < layers, ∀ p < replicas, label l p < experts := fun l hl p hp =>
    Finset.mem_range.mp ((hexact l hl).label_mem (Finset.mem_range.mpr hp))
  have hrank : ∀ l < layers, ∀ p < replicas, rank l p < replicas - experts + 1 :=
    fun l hl p hp => ((hexact l hl).rank_lt (Finset.mem_range.mpr hp)).trans_le
      (hcnt l hl _ (hlabel l hl p hp))
  have hlt : ∀ l < layers, ∀ p < replicas,
      label l p * (replicas - experts + 1) + rank l p < experts * (replicas - experts + 1) :=
    fun l hl p hp => block_lt (hlabel l hl p hp) (hrank l hl p hp)
  have hinj : ∀ l < layers, ∀ p < replicas, ∀ q < replicas,
      label l p * (replicas - experts + 1) + rank l p =
        label l q * (replicas - experts + 1) + rank l q → p = q := by
    intro l hl p hp q hq heq
    have hdiv := congrArg (· / (replicas - experts + 1)) heq
    have hmod := congrArg (· % (replicas - experts + 1)) heq
    simp only [block_div (hrank l hl p hp), block_div (hrank l hl q hq)] at hdiv
    simp only [block_mod (hrank l hl p hp), block_mod (hrank l hl q hq)] at hmod
    exact (hexact l hl).injective (Finset.mem_range.mpr hp) (Finset.mem_range.mpr hq) hdiv hmod
  obtain ⟨out, hrun, hout, hrest⟩ := Tensor.scatter_ofFn (fun _ _ => (-1 : Int))
    (fun _ p => (p : Int)) hlt hinj
  have hfill : fillLog2phy (Tensor.ofFn layers replicas fun l p => (label l p : Int))
      (Tensor.ofFn layers replicas fun l p => (rank l p : Int)) layers experts
      (replicas - experts + 1) =
      .ok (Tensor.ofFn layers (experts * (replicas - experts + 1)) out) := by
    rw [fillLog2phy, Tensor.viewRows_join hlayers rfl, ok_bind, slotNumbers_ofFn, hrun]
  refine ⟨_, hfill, ⟨⟨rfl, rfl⟩, ⟨rfl, rfl⟩, ⟨rfl, rfl⟩⟩, fun l hl => ?_⟩
  have hreplica : ∀ e < experts, ∀ r < replicas - experts + 1,
      (Tensor.ofFn layers (experts * (replicas - experts + 1)) out).get l
        (e * (replicas - experts + 1) + r) = out l (e * (replicas - experts + 1) + r) :=
    fun e he r hr => Tensor.get_ofFn hl (block_lt he hr)
  exact readMaps (hexact l hl) (hpos l hl) (hcnt l hl) (fun p hp => Tensor.get_ofFn hl hp)
    (fun e he => Tensor.get_ofFn hl he)
    (fun p hp => (hreplica _ (hlabel l hl p hp) _ (hrank l hl p hp)).trans (hout l hl p hp))
    (fun e he r hr hno => (hreplica e he r hr).trans (hrest l hl _ (block_lt he hr) hno))

end ExpertMaps

variable [Inhabited W]

/-- The hierarchical result, read at the divisibility the source asserts. -/
lemma hierarchical_balanced {weight : Tensor W} {numReplicas numGroups numNodes numGpus : Nat}
    (hlayers : 0 < weight.rows) (hexperts : 0 < weight.cols) (hle : weight.cols ≤ numReplicas)
    (hgpus : numGpus ∣ numReplicas) (hnodes : numNodes ∣ numGpus) (hgroups : numGroups ∣ weight.cols)
    (hpolicy : numNodes ∣ numGroups) :
    ∃ label rank cnt node : Nat → Nat → Nat,
      rebalanceExpertsHierarchical T weight numReplicas numGroups numNodes numGpus =
        .ok (Tensor.ofFn weight.rows numReplicas fun l p => (label l p : Int),
          Tensor.ofFn weight.rows numReplicas fun l p => (rank l p : Int),
          Tensor.ofFn weight.rows weight.cols fun l e => (cnt l e : Int)) ∧
      ∀ l < weight.rows, Balanced weight.cols numReplicas (weight.cols / numGroups)
        (numReplicas / numNodes) numNodes numGroups (label l) (rank l) (cnt l) (node l) := by
  obtain ⟨groupsPerNode, rfl⟩ := hpolicy
  obtain ⟨gpusPerNode, rfl⟩ := hnodes
  obtain ⟨perGpu, rfl⟩ := hgpus
  obtain ⟨groupSize, hcols⟩ := hgroups
  have hreplicas := hexperts.trans_le hle
  have hpos : 0 < numNodes * groupsPerNode * groupSize := hcols ▸ hexperts
  have hgroups' : 0 < numNodes * groupsPerNode := Nat.pos_of_mul_pos_right hpos
  have hnodes : 0 < numNodes := Nat.pos_of_mul_pos_right hgroups'
  have hgpus : 0 < gpusPerNode :=
    Nat.pos_of_mul_pos_left (Nat.pos_of_mul_pos_right hreplicas)
  rw [hcols] at hle
  rw [Nat.mul_assoc] at hpos
  rw [Nat.mul_assoc, Nat.mul_assoc] at hle
  obtain ⟨label, rank, cnt, node, hrun, hbalanced⟩ := hierarchical_spec (T := T)
    hlayers hnodes hgpus (Nat.pos_of_mul_pos_left hpos) (Nat.le_of_mul_le_mul_left hle hnodes)
    weight.get
  rw [← hcols, ← Tensor.eq_ofFn] at hrun
  refine ⟨label, rank, cnt, node, hrun, fun l hl => ?_⟩
  rw [hcols, Nat.mul_div_cancel_left _ hgroups', Nat.mul_assoc numNodes gpusPerNode,
    Nat.mul_div_cancel_left _ hnodes, ← Nat.mul_assoc]
  exact hbalanced l hl

/-- For all weights, both policies return consistent maps, and the hierarchical one keeps the
experts of a group on one node. A matrix without entries is left out: torch refuses its views. -/
theorem rebalance_experts_consistent (T : FloatOps W) (weight : Tensor W)
    (numReplicas numGroups numNodes numGpus : Nat) (hlayers : 0 < weight.rows)
    (hexperts : 0 < weight.cols) (hle : weight.cols ≤ numReplicas) (hgpus : numGpus ∣ numReplicas)
    (hnodes : numNodes ∣ numGpus) (hgroups : numGroups ∣ weight.cols) :
    ∃ m, rebalanceExperts T weight numReplicas numGroups numNodes numGpus = .ok m ∧
      m.HasShape weight.rows weight.cols numReplicas ∧
      ∀ l < weight.rows, m.Consistent weight.cols numReplicas l ∧
        (numNodes ∣ numGroups →
          m.GroupsOnNodes weight.cols numReplicas l numGroups numNodes numGpus) := by
  have hreplicas := hexperts.trans_le hle
  have hgpuspos : 0 < numGpus := Nat.pos_of_dvd_of_pos hgpus hreplicas
  have hnodespos : 0 < numNodes := Nat.pos_of_dvd_of_pos hnodes hgpuspos
  have hmod : pyMod numGroups numNodes = .ok (numGroups % numNodes) := if_neg hnodespos.ne'
  by_cases hpolicy : numNodes ∣ numGroups
  · obtain ⟨label, rank, cnt, node, hrun, hbalanced⟩ := hierarchical_balanced (T := T)
      hlayers hexperts hle hgpus hnodes hgroups hpolicy
    obtain ⟨log2phy, hfill, hshape, hconsistent⟩ := ExpertMaps.fillLog2phy_spec hlayers
      (fun l hl => (hbalanced l hl).exact) (fun l hl => (hbalanced l hl).pos)
    refine ⟨_, ?_, hshape, fun l hl => ⟨hconsistent l hl, fun _ g hg => ?_⟩⟩
    · rw [rebalanceExperts, hmod, ok_bind, if_pos (Nat.mod_eq_zero_of_dvd hpolicy), hrun, ok_bind]
      simp only
      rw [hfill, ok_bind]
    · refine ⟨node l g, (hbalanced l hl).node_lt g hg, fun p hp hgroup => ?_⟩
      have hget : (Tensor.ofFn weight.rows numReplicas fun l p => (label l p : Int)).get l p =
          label l p := Tensor.get_ofFn hl hp
      simp only [hget] at hgroup
      rw [ExpertMaps.nodeOfSlot_eq hgpuspos hnodespos hgpus hnodes, (hbalanced l hl).onNode p hp]
      exact congrArg (node l) (by exact_mod_cast hgroup)
  · obtain ⟨label, rank, cnt, node, hrun, hbalanced⟩ := hierarchical_balanced (T := T)
      hlayers hexperts hle hgpus (one_dvd _) (one_dvd _) (one_dvd _)
    obtain ⟨log2phy, hfill, hshape, hconsistent⟩ := ExpertMaps.fillLog2phy_spec hlayers
      (fun l hl => (hbalanced l hl).exact) (fun l hl => (hbalanced l hl).pos)
    refine ⟨_, ?_, hshape, fun l hl => ⟨hconsistent l hl, fun h => absurd h hpolicy⟩⟩
    rw [rebalanceExperts, hmod, ok_bind, if_neg (fun h => hpolicy (Nat.dvd_of_mod_eq_zero h)), hrun,
      ok_bind]
    simp only
    rw [hfill, ok_bind]

/-- Loads without an order: a sort keeps the positions, a maximum is the first. -/
def unordered : FloatOps Unit where
  zero := ()
  add _ _ := ()
  div _ _ := ()
  sum _ := ()
  lt _ _ := false
  sortIndices ws := List.range ws.length
  argmax _ := 0
  empty _ _ := 0
  sortIndices_perm _ := .rfl
  argmax_lt _ h := List.length_pos_iff.mpr h

/-- Twelve experts in four groups, on sixteen slots of eight GPUs in two nodes. -/
theorem rebalance_experts_consistent_two_nodes :
    ∃ m, rebalanceExperts unordered (Tensor.ofFn 2 12 fun _ _ => ()) 16 4 2 8 = .ok m ∧
      m.HasShape 2 12 16 ∧ ∀ l < 2, m.Consistent 12 16 l ∧
        (2 ∣ 4 → m.GroupsOnNodes 12 16 l 4 2 8) :=
  rebalance_experts_consistent unordered (Tensor.ofFn 2 12 fun _ _ => ()) 16 4 2 8 (by decide)
    (by decide) (by decide) (by decide) (by decide) (by decide)

end Eplb
