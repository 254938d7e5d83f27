import VllmMmaEmu.Eplb.RebalanceAlgo
import VllmMmaEmu.Library.Numbering

/-!
# The greedy loops number their items

Whatever the loads compare like, packing gives every item its own place in a pack that is full
in the end, and replication gives every physical expert its own rank among the replicas of a
logical one.
-/

namespace Eplb

open Python Torch Numbering

variable {W : Type} {T : FloatOps W}

lemma getD_map_range {α : Type*} {f : Nat → α} {n i : Nat} {d : α} (h : i < n) :
    ((List.range n).map f).getD i d = f i := by
  simp [List.getD_eq_getElem?_getD, h]

lemma set_map_range {α : Type*} {f : Nat → α} {n i : Nat} {x : α} :
    ((List.range n).map f).set i x = (List.range n).map (Function.update f i x) := by
  refine List.ext_getElem (by simp) fun k hk _ => ?_
  by_cases hki : k = i
  · subst hki
    simp
  · simp [Function.update_of_ne hki, Ne.symm hki]

lemma eq_map_range {l : List Int} {n : Nat} {f : Nat → Nat} (hlen : l.length = n)
    (h : ∀ i < n, l[i]? = some (f i : Int)) : l = (List.range n).map fun i => (f i : Int) := by
  refine List.ext_getElem? fun i => ?_
  by_cases hi : i < n
  · simp [h i hi, hi]
  · rw [List.getElem?_eq_none (by omega), List.getElem?_eq_none (by simpa using hi)]

lemma ofRows_map_range {α β : Type} [Inhabited α] {rows cols : Nat} {g : Nat → β}
    {row : β → List α} {f : Nat → Nat → α} (h : ∀ i, row (g i) = (List.range cols).map (f i)) :
    Tensor.ofRows cols ((List.range rows).map (row ∘ g)) = Tensor.ofFn rows cols f := by
  have hlen : ((List.range rows).map (row ∘ g)).length = rows := by simp
  rw [Tensor.ofRows, hlen]
  refine Tensor.ofFn_congr fun i hi j hj => ?_
  rw [getD_map_range hi, Function.comp_apply, h i, getD_map_range hj]

section Packing

variable {n numPacks groupsPerPack : Nat} {done : List Nat} {s : Packing W}

/-- The groups seen so far have their places, and no pack is over full. -/
structure Packed (n numPacks groupsPerPack : Nat) (done : List Nat) (s : Packing W)
    (pack rank items : Nat → Nat) : Prop where
  packIndex_length : s.packIndex.length = n
  rankInPack_length : s.rankInPack.length = n
  packIndex : ∀ g ∈ done, s.packIndex[g]? = some (pack g : Int)
  rankInPack : ∀ g ∈ done, s.rankInPack[g]? = some (rank g : Int)
  packItems : s.packItems = (List.range numPacks).map items
  exact : Exact done.toFinset (Finset.range numPacks) pack rank items
  room : ∀ k ∈ Finset.range numPacks, items k ≤ groupsPerPack

lemma getElem?_set_update {l : List Int} {f : Nat → Nat} {i k x : Nat} (hi : i < l.length)
    (h : k ≠ i → l[k]? = some (f k : Int)) :
    (l.set i x)[k]? = some (Function.update f i x k : Int) := by
  by_cases hki : k = i
  · subst hki
    simp [hi]
  · rw [List.getElem?_set_ne (Ne.symm hki), Function.update_of_ne hki, h hki]

lemma Packed.start (T : FloatOps W) (n numPacks groupsPerPack : Nat) :
    Packed n numPacks groupsPerPack [] ⟨List.replicate n (-1), List.replicate n (-1),
      List.replicate numPacks T.zero, List.replicate numPacks 0⟩ (fun _ => 0) (fun _ => 0)
      (fun _ => 0) where
  packIndex_length := by simp
  rankInPack_length := by simp
  packIndex := by simp
  rankInPack := by simp
  packItems := by simp [List.map_const']
  exact := Exact.empty _
  room := by simp

variable [Inhabited W]

lemma Packed.place {pack rank items : Nat → Nat} {group p : Nat}
    (h : Packed n numPacks groupsPerPack done s pack rank items) (hnew : group ∉ done)
    (hgroup : group < n) (hp : p < numPacks) (hroom : items p < groupsPerPack) :
    Packed n numPacks groupsPerPack (done ++ [group]) (s.place T weight group p)
      (Function.update pack group p) (Function.update rank group (items p))
      (Function.update items p (items p + 1)) := by
  have hitems : s.packItems.getD p 0 = items p := by rw [h.packItems, getD_map_range hp]
  have hmem : ∀ {g}, g ∈ done ++ [group] → g ≠ group → g ∈ done := by
    intro g hg hne
    rcases List.mem_append.mp hg with hg | hg
    · exact hg
    · exact absurd (List.mem_singleton.mp hg) hne
  exact {
    packIndex_length := by simp [Packing.place, h.packIndex_length]
    rankInPack_length := by simp [Packing.place, h.rankInPack_length]
    packIndex := fun g hg => getElem?_set_update (h.packIndex_length ▸ hgroup)
      fun hne => h.packIndex g (hmem hg hne)
    rankInPack := by
      intro g hg
      rw [Packing.place, hitems]
      exact getElem?_set_update (h.rankInPack_length ▸ hgroup)
        fun hne => h.rankInPack g (hmem hg hne)
    packItems := by rw [Packing.place, hitems, h.packItems, set_map_range]
    exact := by
      have hinsert : (done ++ [group]).toFinset = insert group done.toFinset := by
        ext g
        simp
      rw [hinsert]
      exact h.exact.extend (by simpa using hnew) (Finset.mem_range.mpr hp)
    room := by
      intro i hi
      by_cases hip : i = p
      · subst hip
        rw [Function.update_self]
        omega
      · rw [Function.update_of_ne hip]
        exact h.room i hi }

lemma Packed.packGroup {w : List W} {pack rank items : Nat → Nat} {group : Nat}
    (h : Packed n numPacks groupsPerPack done s pack rank items) (hnew : group ∉ done)
    (hgroup : group < n) (hnodup : done.Nodup) (hlt : done.length < numPacks * groupsPerPack) :
    ∃ s' p, packGroup T w numPacks groupsPerPack s group = .ok s' ∧
      Packed n numPacks groupsPerPack (done ++ [group]) s' (Function.update pack group p)
        (Function.update rank group (items p)) (Function.update items p (items p + 1)) := by
  have hcard : done.toFinset.card < (Finset.range numPacks).card * groupsPerPack := by
    rwa [List.toFinset_card_of_nodup hnodup, Finset.card_range]
  obtain ⟨k, hk, hroom⟩ := h.exact.exists_room hcard
  have hitems : ∀ i < numPacks, s.packItems.getD i 0 = items i := by
    intro i hi
    rw [h.packItems, getD_map_range hi]
  have hcand : k ∈ (List.range numPacks).filter fun i => s.packItems.getD i 0 < groupsPerPack := by
    have hk := Finset.mem_range.mp hk
    simp only [List.mem_filter, List.mem_range, decide_eq_true_eq]
    exact ⟨hk, by rwa [hitems k hk]⟩
  obtain ⟨p, hp, hmin⟩ := pyMin_of_mem T.lt (fun i => s.packWeights.getD i T.zero) hcand
  simp only [List.mem_filter, List.mem_range, decide_eq_true_eq] at hp
  obtain ⟨hpn, hpr⟩ := hp
  refine ⟨s.place T w group p, p, ?_, h.place hnew hgroup hpn (hitems p hpn ▸ hpr)⟩
  rw [Eplb.packGroup, hmin, ok_bind, pyAssert, if_pos hpr, ok_bind]

lemma packLayer_spec {w : List W} (hn : w.length = numPacks * groupsPerPack) :
    ∃ s pack rank, packLayer T w numPacks groupsPerPack = .ok s ∧
      s.packIndex = (List.range w.length).map (fun g => (pack g : Int)) ∧
      s.rankInPack = (List.range w.length).map (fun g => (rank g : Int)) ∧
      Exact (Finset.range w.length) (Finset.range numPacks) pack rank
        (fun _ => groupsPerPack) := by
  have hperm := T.sortIndices_perm w
  have hnodup : (T.sortIndices w).Nodup := hperm.nodup_iff.mpr List.nodup_range
  have hstep : ∀ done group rest s, T.sortIndices w = done ++ group :: rest →
      (∃ pack rank items, Packed w.length numPacks groupsPerPack done s pack rank items) →
      ∃ s', packGroup T w numPacks groupsPerPack s group = .ok s' ∧
        ∃ pack rank items,
          Packed w.length numPacks groupsPerPack (done ++ [group]) s' pack rank items := by
    rintro done group rest s hsplit ⟨pack, rank, items, h⟩
    rw [hsplit] at hnodup
    have hlength := hperm.length_eq
    rw [hsplit, List.length_append, List.length_cons, List.length_range] at hlength
    have hgroup : group ∈ List.range w.length := by
      rw [← hperm.mem_iff, hsplit]
      simp
    have hnew : group ∉ done := fun hin =>
      (List.nodup_append.mp hnodup).2.2 group hin group List.mem_cons_self rfl
    obtain ⟨s', p, hrun, h'⟩ := h.packGroup (T := T) (w := w) hnew
      (List.mem_range.mp hgroup) (List.nodup_append.mp hnodup).1 (by omega)
    exact ⟨s', hrun, _, _, _, h'⟩
  obtain ⟨s, hrun, pack, rank, items, h⟩ :=
    foldlM_of_step hstep ⟨_, _, _, Packed.start T w.length numPacks groupsPerPack⟩
  have hall : (T.sortIndices w).toFinset = Finset.range w.length := by
    ext g
    simp [hperm.mem_iff]
  have hmem : ∀ g < w.length, g ∈ T.sortIndices w := fun g hg =>
    hperm.mem_iff.mpr (List.mem_range.mpr hg)
  have hexact := h.exact
  rw [hall] at hexact
  refine ⟨s, pack, rank, hrun, eq_map_range h.packIndex_length fun g hg => h.packIndex g (hmem g hg),
    eq_map_range h.rankInPack_length fun g hg => h.rankInPack g (hmem g hg),
    hexact.congr (fun _ _ => rfl) (fun _ _ => rfl) fun k hk => ?_⟩
  exact (hexact.cnt_eq_of_full h.room (by simp [hn]) hk).symm

/-- The packs hold the same number of items, each in a place of its own. -/
theorem balancedPacking_spec {rows n numPacks groupsPerPack : Nat} (hpacks : 0 < numPacks)
    (hn : n = numPacks * groupsPerPack) (f : Nat → Nat → W) :
    ∃ pack rank : Nat → Nat → Nat, balancedPacking T (Tensor.ofFn rows n f) numPacks =
        .ok (Tensor.ofFn rows n fun i j => (pack i j : Int),
          Tensor.ofFn rows n fun i j => (rank i j : Int)) ∧
      ∀ i < rows, Exact (Finset.range n) (Finset.range numPacks) (pack i) (rank i)
        (fun _ => groupsPerPack) := by
  have hdvd : numPacks ∣ n := Dvd.intro _ hn.symm
  have hdiv : n / numPacks = groupsPerPack := by rw [hn, Nat.mul_div_cancel_left _ hpacks]
  simp only [balancedPacking, Tensor.ofFn_cols, Tensor.ofFn_rows, pyMod_of_dvd hpacks hdvd,
    ok_bind, pyAssert, if_true, hdiv]
  by_cases hone : groupsPerPack = 1
  · refine ⟨fun _ j => j, fun _ _ => 0, by rw [if_pos hone]; rfl, fun i _ => ?_⟩
    subst hone
    rw [Nat.mul_one] at hn
    subst hn
    exact Exact.identity _
  · have hrow : ∀ i, ((Tensor.ofFn rows n f).row i).length = n := fun i => by simp [Tensor.row]
    have hlayer : ∀ i, ∃ s pack rank,
        packLayer T ((Tensor.ofFn rows n f).row i) numPacks groupsPerPack = .ok s ∧
        s.packIndex = (List.range n).map (fun g => (pack g : Int)) ∧
        s.rankInPack = (List.range n).map (fun g => (rank g : Int)) ∧
        Exact (Finset.range n) (Finset.range numPacks) pack rank (fun _ => groupsPerPack) := by
      intro i
      have := packLayer_spec (T := T) (w := (Tensor.ofFn rows n f).row i) (by rw [hrow, hn])
      rwa [hrow] at this
    choose s pack rank hrun hpack hrank hexact using hlayer
    refine ⟨pack, rank, ?_, fun i _ => hexact i⟩
    rw [if_neg hone, mapM_range_of_forall fun i _ => hrun i, ok_bind, List.map_map, List.map_map,
      ofRows_map_range fun i => hpack i, ofRows_map_range fun i => hrank i]

end Packing

section Replication

variable {n numPhy i : Nat} {s : Replicas} {label rank cnt : Nat → Nat}

/-- The physical experts below `i` are numbered as replicas. -/
structure Replicated (n numPhy i : Nat) (s : Replicas) (label rank cnt : Nat → Nat) : Prop where
  phy2log_length : s.phy2log.length = numPhy
  rank_length : s.rank.length = numPhy
  phy2log : ∀ p < i, s.phy2log[p]? = some (label p : Int)
  ranks : ∀ p < i, s.rank[p]? = some (rank p : Int)
  logcnt : s.logcnt = (List.range n).map fun e => (cnt e : Int)
  exact : Exact (Finset.range i) (Finset.range n) label rank cnt
  pos : ∀ e < n, 0 < cnt e

lemma Replicated.start (h : n ≤ numPhy) :
    Replicated n numPhy n ⟨(List.range numPhy).map Int.ofNat, List.replicate numPhy 0,
      List.replicate n 1⟩ id (fun _ => 0) (fun _ => 1) where
  phy2log_length := by simp
  rank_length := by simp
  phy2log p hp := by simp [show p < numPhy by omega]
  ranks p hp := by simp [show p < numPhy by omega]
  logcnt := by simp [List.map_const']
  exact := Exact.identity _
  pos _ _ := Nat.one_pos

lemma Replicated.add {e : Nat} (h : Replicated n numPhy i s label rank cnt) (hi : i < numPhy)
    (he : e < n) :
    Replicated n numPhy (i + 1) (s.add i e) (Function.update label i e)
      (Function.update rank i (cnt e)) (Function.update cnt e (cnt e + 1)) := by
  have hcnt : s.logcnt.getD e 0 = (cnt e : Int) := by rw [h.logcnt, getD_map_range he]
  exact {
    phy2log_length := by simp [Replicas.add, h.phy2log_length]
    rank_length := by simp [Replicas.add, h.rank_length]
    phy2log := fun p hp => getElem?_set_update (h.phy2log_length ▸ hi)
      fun hne => h.phy2log p (by omega)
    ranks := by
      intro p hp
      rw [Replicas.add, hcnt]
      exact getElem?_set_update (h.rank_length ▸ hi) fun hne => h.ranks p (by omega)
    logcnt := by
      rw [Replicas.add, hcnt, h.logcnt, set_map_range]
      refine List.map_congr_left fun k _ => ?_
      by_cases hk : k = e
      · subst hk
        simp
      · simp [Function.update_of_ne hk]
    exact := by
      rw [Finset.range_add_one]
      exact h.exact.extend Finset.notMem_range_self (Finset.mem_range.mpr he)
    pos := by
      intro k hk
      by_cases hke : k = e
      · subst hke
        simp
      · rw [Function.update_of_ne hke]
        exact h.pos k hk }

lemma Replicated.phy2log_eq (h : Replicated n numPhy numPhy s label rank cnt) :
    s.phy2log = (List.range numPhy).map fun p => (label p : Int) :=
  eq_map_range h.phy2log_length h.phy2log

lemma Replicated.rank_eq (h : Replicated n numPhy numPhy s label rank cnt) :
    s.rank = (List.range numPhy).map fun p => (rank p : Int) :=
  eq_map_range h.rank_length h.ranks

lemma replicateRow_spec {w : List W} (hw : w ≠ []) (hle : w.length ≤ numPhy) :
    ∃ s label rank cnt, replicateRow T w numPhy = .ok s ∧
      Replicated w.length numPhy numPhy s label rank cnt := by
  have hstep : ∀ done i rest s,
      List.range' w.length (numPhy - w.length) = done ++ i :: rest →
      (∃ label rank cnt,
        Replicated w.length numPhy (w.length + done.length) s label rank cnt) →
      ∃ s', addReplica T w s i = .ok s' ∧ ∃ label rank cnt,
        Replicated w.length numPhy (w.length + (done ++ [i]).length) s' label rank cnt := by
    rintro done i rest s hsplit ⟨label, rank, cnt, h⟩
    have hlength := congrArg List.length hsplit
    rw [List.length_range', List.length_append, List.length_cons] at hlength
    have hi : i = w.length + done.length := by
      have := congrArg (·[done.length]?) hsplit
      simp only [List.getElem?_append_right (Nat.le_refl _), Nat.sub_self,
        List.getElem?_cons_zero] at this
      obtain ⟨hlt, heq⟩ := List.getElem?_eq_some_iff.mp this
      rw [← heq, List.getElem_range', Nat.one_mul]
    subst hi
    have hlogcnt : s.logcnt.length = w.length := by simp [h.logcnt]
    have hne : List.zipWith T.div w s.logcnt ≠ [] := by
      rw [← List.length_pos_iff, List.length_zipWith, hlogcnt, Nat.min_self]
      exact List.length_pos_iff.mpr hw
    have hargmax := T.argmax_lt _ hne
    rw [List.length_zipWith, hlogcnt, Nat.min_self] at hargmax
    have hsucc : w.length + done.length + 1 =
        w.length + (done ++ [w.length + done.length]).length := by
      rw [List.length_append, List.length_singleton, Nat.add_assoc]
    have hadd := h.add (by omega) hargmax
    rw [hsucc] at hadd
    refine ⟨_, ?_, _, _, _, hadd⟩
    rw [addReplica, if_neg (by simpa using hw)]
  obtain ⟨s, hrun, label, rank, cnt, h⟩ :=
    foldlM_of_step hstep ⟨_, _, _, Replicated.start hle⟩
  rw [List.length_range', Nat.add_sub_cancel' hle] at h
  exact ⟨s, label, rank, cnt, hrun, h⟩

lemma replicateRow_ofFn [Inhabited W] (rows : Nat) (hn : 0 < n) (hle : n ≤ numPhy)
    (f : Nat → Nat → W) (i : Nat) : ∃ s label rank cnt,
      replicateRow T ((Tensor.ofFn rows n f).row i) numPhy = .ok s ∧
      Replicated n numPhy numPhy s label rank cnt := by
  have hlen : ((Tensor.ofFn rows n f).row i).length = n := by simp [Tensor.row]
  have hne : (Tensor.ofFn rows n f).row i ≠ [] := by
    rw [← List.length_pos_iff, hlen]
    exact hn
  have hrow := replicateRow_spec (T := T) hne (hlen.le.trans hle)
  rwa [hlen] at hrow

lemma replicateExperts_of_rows [Inhabited W] {rows : Nat} {f : Nat → Nat → W} (hle : n ≤ numPhy)
    {s : Nat → Replicas} {label rank cnt : Nat → Nat → Nat}
    (hrun : ∀ i, replicateRow T ((Tensor.ofFn rows n f).row i) numPhy = .ok (s i))
    (h : ∀ i, Replicated n numPhy numPhy (s i) (label i) (rank i) (cnt i)) :
    replicateExperts T (Tensor.ofFn rows n f) numPhy =
      .ok (Tensor.ofFn rows numPhy fun i p => (label i p : Int),
        Tensor.ofFn rows numPhy fun i p => (rank i p : Int),
        Tensor.ofFn rows n fun i e => (cnt i e : Int)) := by
  refine bind_eq_ok.mpr ⟨(), pyAssert_eq_ok.mpr hle, ?_⟩
  simp only [Tensor.ofFn_cols, Tensor.ofFn_rows, mapM_range_of_forall fun i _ => hrun i, ok_bind,
    List.map_map]
  rw [ofRows_map_range fun i => (h i).phy2log_eq, ofRows_map_range fun i => (h i).rank_eq,
    ofRows_map_range fun i => (h i).logcnt]

/-- Every row numbers its physical experts as replicas of the logical ones. -/
theorem replicateExperts_spec [Inhabited W] (rows : Nat) (hn : 0 < n) (hle : n ≤ numPhy)
    (f : Nat → Nat → W) :
    ∃ label rank cnt : Nat → Nat → Nat, replicateExperts T (Tensor.ofFn rows n f) numPhy =
        .ok (Tensor.ofFn rows numPhy fun i p => (label i p : Int),
          Tensor.ofFn rows numPhy fun i p => (rank i p : Int),
          Tensor.ofFn rows n fun i e => (cnt i e : Int)) ∧
      ∀ i < rows, Exact (Finset.range numPhy) (Finset.range n) (label i) (rank i) (cnt i) ∧
        ∀ e < n, 0 < cnt i e := by
  choose s label rank cnt hrun h using
    fun i => replicateRow_ofFn (T := T) rows hn hle f i
  exact ⟨label, rank, cnt, replicateExperts_of_rows hle hrun h,
    fun i _ => ⟨(h i).exact, (h i).pos⟩⟩

end Replication

end Eplb
