import VllmMmaEmu.Library.Torch

/-!
# The expert load balancer's maps

`balanced_packing`, `replicate_experts` and the two policies of `rebalance_experts`. Loads
are floating-point numbers; of their order nothing is assumed, so every choice the greedy
loops could make is covered.
-/

namespace Eplb

open Python Torch

/-- What torch computes with loads. A sort returns some permutation of the positions and a
maximum some position, whatever the loads compare like. -/
structure FloatOps (W : Type) where
  zero : W
  add : W → W → W
  div : W → Int → W
  sum : List W → W
  lt : W → W → Bool
  /-- `sort(-1, descending=True).indices`. -/
  sortIndices : List W → List Nat
  /-- `max(dim=-1).indices`. -/
  argmax : List W → Nat
  /-- The memory that `empty_like` hands out. -/
  empty : Nat → Nat → Int
  sortIndices_perm : ∀ ws, (sortIndices ws).Perm (List.range ws.length)
  argmax_lt : ∀ ws, ws ≠ [] → argmax ws < ws.length

variable {W : Type} [Inhabited W] (T : FloatOps W)

/-- The variables of the loop over one layer's groups. -/
structure Packing (W : Type) where
  packIndex : List Int
  rankInPack : List Int
  packWeights : List W
  packItems : List Nat

/-- `group` takes the next place of `pack`. -/
def Packing.place (weight : List W) (s : Packing W) (group pack : Nat) : Packing W where
  packIndex := s.packIndex.set group pack
  rankInPack := s.rankInPack.set group (s.packItems.getD pack 0)
  packWeights := s.packWeights.set pack
    (T.add (s.packWeights.getD pack T.zero) (weight.getD group default))
  packItems := s.packItems.set pack (s.packItems.getD pack 0 + 1)

/-- One pass: `group` goes to the lightest pack that has room. -/
def packGroup (weight : List W) (numPacks groupsPerPack : Nat) (s : Packing W) (group : Nat) :
    Except PyError (Packing W) := do
  let pack ← pyMin T.lt (fun i => s.packWeights.getD i T.zero)
    ((List.range numPacks).filter fun i => s.packItems.getD i 0 < groupsPerPack)
  pyAssert (s.packItems.getD pack 0 < groupsPerPack)
  .ok (s.place T weight group pack)

def packLayer (weight : List W) (numPacks groupsPerPack : Nat) : Except PyError (Packing W) :=
  (T.sortIndices weight).foldlM (packGroup T weight numPacks groupsPerPack) {
    packIndex := List.replicate weight.length (-1)
    rankInPack := List.replicate weight.length (-1)
    packWeights := List.replicate numPacks T.zero
    packItems := List.replicate numPacks 0 }

/-- The pack of each item and its rank in the pack. -/
def balancedPacking (weight : Tensor W) (numPacks : Nat) :
    Except PyError (Tensor Int × Tensor Int) := do
  let numGroups := weight.cols
  pyAssert ((← pyMod numGroups numPacks) = 0)
  let groupsPerPack := numGroups / numPacks
  if groupsPerPack = 1 then
    .ok (Tensor.ofFn weight.rows weight.cols fun _ j => j,
      Tensor.ofFn weight.rows weight.cols fun _ _ => 0)
  else
    let layers ← (List.range weight.rows).mapM fun i =>
      packLayer T (weight.row i) numPacks groupsPerPack
    .ok (Tensor.ofRows weight.cols (layers.map (·.packIndex)),
      Tensor.ofRows weight.cols (layers.map (·.rankInPack)))

/-- One row of the three results of `replicate_experts`. -/
structure Replicas where
  phy2log : List Int
  rank : List Int
  logcnt : List Int

/-- `redundantIndex` gets `i` as one more replica. -/
def Replicas.add (s : Replicas) (i redundantIndex : Nat) : Replicas where
  phy2log := s.phy2log.set i redundantIndex
  rank := s.rank.set i (s.logcnt.getD redundantIndex 0)
  logcnt := s.logcnt.set redundantIndex (s.logcnt.getD redundantIndex 0 + 1)

/-- One pass of the loop, in one row: physical expert `i` becomes a replica of the logical
expert with the largest load per replica. -/
def addReplica (weight : List W) (s : Replicas) (i : Nat) : Except PyError Replicas :=
  if weight.isEmpty then .error .indexError
  else .ok (s.add i (T.argmax (List.zipWith T.div weight s.logcnt)))

def replicateRow (weight : List W) (numPhy : Nat) : Except PyError Replicas :=
  (List.range' weight.length (numPhy - weight.length)).foldlM (addReplica T weight) {
    phy2log := (List.range numPhy).map Int.ofNat
    rank := List.replicate numPhy 0
    logcnt := List.replicate weight.length 1 }

/-- The logical expert of each physical one, its rank among the replicas, and the number of
replicas of each logical expert. The source runs the loop on all rows at once; no row reads
another. -/
def replicateExperts (weight : Tensor W) (numPhy : Nat) :
    Except PyError (Tensor Int × Tensor Int × Tensor Int) := do
  let numLog := weight.cols
  pyAssert (numLog ≤ numPhy)
  let rows ← (List.range weight.rows).mapM fun i => replicateRow T (weight.row i) numPhy
  .ok (Tensor.ofRows numPhy (rows.map (·.phy2log)), Tensor.ofRows numPhy (rows.map (·.rank)),
    Tensor.ofRows numLog (rows.map (·.logcnt)))

/-- The inverse of every row. -/
def inverse (perm : Tensor Int) : Except PyError (Tensor Int) :=
  (Tensor.ofFn perm.rows perm.cols T.empty).scatter perm fun _ j => j

/-- `a * k + b`. -/
def slotNumbers (a b : Tensor Int) (k : Nat) : Tensor Int :=
  Tensor.ofFn a.rows a.cols fun i j => a.get i j * k + b.get i j

/-- `(t * k).unsqueeze(-1) + arange(k)`, flattened. -/
def expandGroups (t : Tensor Int) (k : Nat) : Tensor Int :=
  Tensor.ofFn t.rows (t.cols * k) fun i j => t.get i (j / k) * k + (j % k : Nat)

/-- `weight.unflatten(-1, (num_groups, group_size)).sum(-1)`. -/
def sumGroups (weight : Tensor W) (numGroups groupSize : Nat) : Tensor W :=
  Tensor.ofFn weight.rows numGroups fun i g =>
    T.sum ((List.range groupSize).map fun o => weight.get i (g * groupSize + o))

/-- `t.view(num_layers, num_nodes, -1) + arange(0, step * num_nodes, step)[:, None]`, flattened;
the rows of the view are the pairs of a layer and a node. -/
def addNodeOffsets (t : Tensor Int) (numLayers numNodes step : Nat) :
    Except PyError (Tensor Int) := do
  let blocks ← t.viewRows (numLayers * numNodes)
  let shifted := Tensor.ofFn blocks.rows blocks.cols fun i j =>
    blocks.get i j + (i % numNodes * step : Nat)
  shifted.viewRows numLayers

def rebalanceExpertsHierarchical (weight : Tensor W)
    (numPhysicalExperts numGroups numNodes numGpus : Nat) :
    Except PyError (Tensor Int × Tensor Int × Tensor Int) := do
  let numLayers := weight.rows
  let numLogicalExperts := weight.cols
  pyAssert ((← pyMod numLogicalExperts numGroups) = 0)
  let groupSize := numLogicalExperts / numGroups
  pyAssert ((← pyMod numGroups numNodes) = 0)
  let groupsPerNode := numGroups / numNodes
  pyAssert ((← pyMod numGpus numNodes) = 0)
  pyAssert ((← pyMod numPhysicalExperts numGpus) = 0)
  let phyExpertsPerGpu := numPhysicalExperts / numGpus
  -- step 1: groups to nodes
  let tokensPerGroup := sumGroups T weight numGroups groupSize
  let (groupPackIndex, groupRankInPack) ← balancedPacking T tokensPerGroup numNodes
  let log2mlog := expandGroups (slotNumbers groupPackIndex groupRankInPack groupsPerNode) groupSize
  let mlog2log ← inverse T log2mlog
  -- step 2: redundant experts within each node
  let tokensPerMlog ← (← weight.gather mlog2log).viewCols (numLogicalExperts / numNodes)
  let (phy2mlog, phyrank, mlogcnt) ←
    replicateExperts T tokensPerMlog (numPhysicalExperts / numNodes)
  -- step 3: physical experts to the GPUs of their node
  let loads := Tensor.ofFn tokensPerMlog.rows tokensPerMlog.cols fun i j =>
    T.div (tokensPerMlog.get i j) (mlogcnt.get i j)
  let tokensPerPhy ← loads.gather phy2mlog
  let (packIndex, rankInPack) ← balancedPacking T tokensPerPhy (numGpus / numNodes)
  let phy2pphy := slotNumbers packIndex rankInPack phyExpertsPerGpu
  let pphy2phy ← inverse T phy2pphy
  let pphy2mlog ← phy2mlog.gather pphy2phy
  let pphy2mlog ← addNodeOffsets pphy2mlog numLayers numNodes (numLogicalExperts / numNodes)
  let pphy2log ← mlog2log.gather pphy2mlog
  let pphyrank ← (← phyrank.gather pphy2phy).viewRows numLayers
  let logcnt ← (← mlogcnt.viewRows numLayers).gather log2mlog
  .ok (pphy2log, pphyrank, logcnt)

/-- The three maps. `log2phy` is held with its last two axes flattened: the entry of expert `e`
and replica `r` is in column `e * maxlogcnt + r`. -/
structure ExpertMaps where
  phy2log : Tensor Int
  log2phy : Tensor Int
  logcnt : Tensor Int
  maxlogcnt : Nat

def ExpertMaps.replica (m : ExpertMaps) (layer e r : Nat) : Int :=
  m.log2phy.get layer (e * m.maxlogcnt + r)

/-- `log2phy`, filled with the positions of `phy2log`. -/
def fillLog2phy (phy2log phyrank : Tensor Int) (numLayers numLogicalExperts maxlogcnt : Nat) :
    Except PyError (Tensor Int) := do
  let log2phy := Tensor.ofFn (numLayers * numLogicalExperts) maxlogcnt fun _ _ => (-1 : Int)
  (← log2phy.viewRows numLayers).scatter (slotNumbers phy2log phyrank maxlogcnt) fun _ p => p

/-- Entry point of the load balancer. -/
def rebalanceExperts (weight : Tensor W) (numReplicas numGroups numNodes numGpus : Nat) :
    Except PyError ExpertMaps := do
  let numLayers := weight.rows
  let numLogicalExperts := weight.cols
  let (phy2log, phyrank, logcnt) ←
    if (← pyMod numGroups numNodes) = 0 then
      rebalanceExpertsHierarchical T weight numReplicas numGroups numNodes numGpus
    else
      rebalanceExpertsHierarchical T weight numReplicas 1 1 numGpus
  let maxlogcnt := numReplicas - numLogicalExperts + 1
  let log2phy ← fillLog2phy phy2log phyrank numLayers numLogicalExperts maxlogcnt
  .ok { phy2log, log2phy, logcnt, maxlogcnt }

end Eplb
