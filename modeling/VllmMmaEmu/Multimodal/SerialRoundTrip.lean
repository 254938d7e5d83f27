import Mathlib.Algebra.BigOperators.Ring.List
import VllmMmaEmu.Multimodal.SerialUtils

/-!
# Multimodal payloads survive the wire

The buffers of a message only grow while it is written, so every index that was written is
still good when the message is read. Each nesting is told from the others by its first element.
-/

namespace VllmV1.Serial

open Python

variable {itemsize : String → Option Nat} {z : Int}

/-- The buffers of a finished message are those that were written, but for the first. -/
def Agrees (bufs auxBuffers : List Buffer) : Prop :=
  auxBuffers ≠ [] ∧ ∀ i, 0 < i → i < auxBuffers.length → bufs[i]? = auxBuffers[i]?

lemma Agrees.of_prefix {bufs aux aux' : List Buffer} (h : Agrees bufs aux') (hpre : aux <+: aux')
    (hne : aux ≠ []) : Agrees bufs aux := by
  refine ⟨hne, fun i hpos hi => ?_⟩
  obtain ⟨rest, rfl⟩ := hpre
  rw [h.2 i hpos (by rw [List.length_append]; omega), List.getElem?_append_left hi]

/-- A writer that only adds buffers, and that a reader undoes. -/
def Undone {α β : Type} (encode : List Buffer → α → β × List Buffer)
    (read : List Buffer → β → Except PyError α) (a : α) : Prop :=
  ∀ aux, aux ≠ [] → aux <+: (encode aux a).2 ∧
    ∀ bufs, Agrees bufs (encode aux a).2 → read bufs (encode aux a).1 = .ok a

lemma encodeEach_undone {α β : Type} {encode : List Buffer → α → β × List Buffer}
    {read : List Buffer → β → Except PyError α} {l : List α} (h : ∀ a ∈ l, Undone encode read a) :
    Undone (encodeEach encode) (fun bufs l => l.mapM (read bufs)) l := by
  induction l with
  | nil => exact fun aux _ => ⟨List.prefix_refl _, fun _ _ => rfl⟩
  | cons a l ih =>
    intro aux hne
    obtain ⟨hpre, hread⟩ := h a List.mem_cons_self aux hne
    have hne' : (encode aux a).2 ≠ [] := fun hnil => hne (List.prefix_nil.mp (hnil ▸ hpre))
    obtain ⟨hpre', hread'⟩ := ih (fun b hb => h b (List.mem_cons_of_mem _ hb)) _ hne'
    refine ⟨hpre.trans hpre', fun bufs hbufs => ?_⟩
    have hone := hread bufs (hbufs.of_prefix hpre' hne')
    have hrest := hread' bufs hbufs
    show ((encode aux a).1 :: _).mapM (read bufs) = _
    rw [List.mapM_cons]
    exact bind_eq_ok.mpr ⟨a, hone, bind_eq_ok.mpr ⟨l, hrest, rfl⟩⟩

lemma PyVal.wireList_eq_map (l : List PyVal) : PyVal.wireList l = l.map PyVal.wire := by
  induction l with
  | nil => rfl
  | cons v rest ih => rw [PyVal.wireList, ih, List.map_cons]

lemma PyVal.wireDict_eq_map (d : List (String × PyVal)) :
    PyVal.wireDict d = d.map fun p => (p.1, p.2.wire) := by
  induction d with
  | nil => rfl
  | cons p rest ih => rw [PyVal.wireDict, ih, List.map_cons]

lemma decodeShape_wire (shape : List Nat) :
    decodeShape (PyVal.tuple (shape.map fun n : Nat => PyVal.int n)).wire = .ok shape := by
  rw [PyVal.wire, PyVal.wireList_eq_map, List.map_map]
  show List.mapM decodeSize _ = _
  induction shape with
  | nil => rfl
  | cons n shape ih =>
    rw [List.map_cons, List.mapM_cons]
    have hsize : decodeSize (PyVal.int n).wire = .ok n := by simp [decodeSize, PyVal.wire]
    exact bind_eq_ok.mpr ⟨n, hsize, bind_eq_ok.mpr ⟨shape, ih, rfl⟩⟩

lemma decodeTensor_eq_ok {bufs : List Buffer} {t : Tensor itemsize} {data : PyVal}
    (hdata : readBuffer bufs data = .ok t.data) :
    decodeTensor itemsize bufs (.list [.str t.dtype,
      (PyVal.tuple (t.shape.map fun n : Nat => PyVal.int n)).wire, data]) = .ok t := by
  obtain ⟨n, hsize, hpos, hlen⟩ := t.sized
  have hknown : ¬itemsize t.dtype = none := by
    rw [Option.mem_def.mp hsize]
    exact Option.some_ne_none n
  have hempty : ¬(t.data = [] ∧ 0 ∉ t.shape) := by
    rintro ⟨hnil, hzero⟩
    rw [hnil, List.length_nil, eq_comm, Nat.mul_eq_zero] at hlen
    exact hzero (List.prod_eq_zero_iff.mp (hlen.resolve_left hpos.ne'))
  unfold decodeTensor
  refine bind_eq_ok.mpr ⟨_, hdata, bind_eq_ok.mpr ⟨_, decodeShape_wire t.shape, ?_⟩⟩
  rw [if_neg hknown, if_neg hempty]
  exact dif_pos t.sized

lemma encodeTensor_undone (t : Tensor itemsize) :
    Undone (encodeTensor z) (fun bufs v => decodeTensor itemsize bufs v.wire) t := by
  intro aux hne
  unfold encodeTensor
  split_ifs
  · refine ⟨List.prefix_refl _, fun bufs _ => ?_⟩
    exact decodeTensor_eq_ok rfl
  · refine ⟨List.prefix_append _ _, fun bufs hbufs => ?_⟩
    have hget := hbufs.2 aux.length (List.length_pos_iff.mpr hne) (by simp)
    rw [List.getElem?_concat_length] at hget
    have hread : readBuffer bufs (.int aux.length) = .ok t.data := by
      simp only [readBuffer]
      rw [if_neg (by omega), Int.toNat_natCast, hget]
    exact decodeTensor_eq_ok hread

lemma encodeNestedTensors_not_str (aux : List Buffer) (nt : NestedTensors itemsize)
    (rest : List PyVal) :
    startsWithStr ((encodeNestedTensors z aux nt).1.wire :: rest) = false := by
  cases nt with
  | tensor t =>
    rw [encodeNestedTensors, encodeTensor]
    split_ifs <;> rfl
  | int n => rfl
  | bool b => rfl
  | float bits => rfl
  | list l => rfl

lemma encodeNestedList_not_str (aux : List Buffer) (l : List (NestedTensors itemsize)) :
    startsWithStr (PyVal.wireList (encodeNestedList z aux l).1) = false := by
  cases l with
  | nil => rfl
  | cons nt l => exact encodeNestedTensors_not_str aux nt _

lemma decode_tensor {bufs : List Buffer} {v : PyVal} {t : Tensor itemsize}
    (h : decodeTensor itemsize bufs v = .ok t) :
    decodeNestedTensors itemsize bufs v = .ok (.tensor t) := by
  unfold decodeTensor at h
  split at h
  · rename_i dtype shape data
    have hstr : startsWithStr [.str dtype, shape, data] = true := rfl
    rw [decodeNestedTensors, if_pos hstr]
    exact bind_eq_ok.mpr ⟨t, h, rfl⟩
  · cases h
  · cases h

mutual

theorem encodeNestedTensors_undone : ∀ nt : NestedTensors itemsize,
    Undone (encodeNestedTensors z)
      (fun bufs v => decodeNestedTensors itemsize bufs v.wire) nt
  | .tensor t => by
    intro aux hne
    obtain ⟨hpre, hread⟩ := encodeTensor_undone (z := z) t aux hne
    exact ⟨hpre, fun bufs hbufs => decode_tensor (hread bufs hbufs)⟩
  | .int n => fun aux _ => ⟨List.prefix_refl _, fun _ _ => rfl⟩
  | .bool b => fun aux _ => ⟨List.prefix_refl _, fun _ _ => rfl⟩
  | .float bits => fun aux _ => ⟨List.prefix_refl _, fun _ _ => rfl⟩
  | .list l => by
    intro aux hne
    obtain ⟨hpre, hread⟩ := encodeNestedList_undone l aux hne
    refine ⟨hpre, fun bufs hbufs => ?_⟩
    show decodeNestedTensors itemsize bufs (.list _) = _
    rw [decodeNestedTensors, encodeNestedList_not_str, if_neg Bool.false_ne_true]
    exact bind_eq_ok.mpr ⟨l, hread bufs hbufs, rfl⟩

theorem encodeNestedList_undone : ∀ l : List (NestedTensors itemsize),
    Undone (encodeNestedList z)
      (fun bufs vs => decodeNestedList itemsize bufs (PyVal.wireList vs)) l
  | [] => fun aux _ => ⟨List.prefix_refl _, fun _ _ => rfl⟩
  | nt :: l => by
    intro aux hne
    obtain ⟨hpre, hread⟩ := encodeNestedTensors_undone nt aux hne
    have hne' : (encodeNestedTensors z aux nt).2 ≠ [] :=
      fun hnil => hne (List.prefix_nil.mp (hnil ▸ hpre))
    obtain ⟨hpre', hread'⟩ := encodeNestedList_undone l _ hne'
    refine ⟨hpre.trans hpre', fun bufs hbufs => ?_⟩
    exact bind_eq_ok.mpr ⟨nt, hread bufs (hbufs.of_prefix hpre' hne'),
      bind_eq_ok.mpr ⟨l, hread' bufs hbufs, rfl⟩⟩

end

lemma decodeBound_ofOption (n : Option Int) : decodeBound (.ofOption n) = .ok n := by
  cases n <;> rfl

lemma startsWithScalar_slice (n : Option Int) (rest : List PyVal) :
    startsWithScalar (.ofOption n :: rest) = true := by
  cases n <;> rfl

lemma startsWithScalar_listToPy (l : List NestedSlices) :
    startsWithScalar (PyVal.wireList (NestedSlices.listToPy l)) = false := by
  cases l with
  | nil => rfl
  | cons s l => cases s <;> rfl

mutual

theorem decodeNestedSlices_toPy : ∀ s : NestedSlices, decodeNestedSlices s.toPy.wire = .ok s
  | .slice ⟨start, stop, step⟩ => by
    show decodeNestedSlices (.list [.ofOption start, .ofOption stop, .ofOption step]) = _
    rw [decodeNestedSlices, if_pos (startsWithScalar_slice start _)]
    simp only [decodeSlice, decodeBound_ofOption]
    rfl
  | .list l => by
    show decodeNestedSlices (.list (PyVal.wireList (NestedSlices.listToPy l))) = _
    rw [decodeNestedSlices, startsWithScalar_listToPy, if_neg Bool.false_ne_true]
    exact bind_eq_ok.mpr ⟨l, decodeSlicesList_toPy l, rfl⟩

theorem decodeSlicesList_toPy : ∀ l : List NestedSlices,
    decodeSlicesList (PyVal.wireList (NestedSlices.listToPy l)) = .ok l
  | [] => rfl
  | s :: l => bind_eq_ok.mpr ⟨s, decodeNestedSlices_toPy s,
      bind_eq_ok.mpr ⟨l, decodeSlicesList_toPy l, rfl⟩⟩

end

lemma decodeMmField_encode (f : MultiModalField) : decodeMmField (encodeMmField f).wire = .ok f := by
  cases f with
  | batched => rfl
  | flat slices dim => exact bind_eq_ok.mpr ⟨slices, decodeNestedSlices_toPy slices, rfl⟩
  | shared batchSize => rfl

lemma decodeData_some {bufs : List Buffer} {v : PyVal} {nt : NestedTensors itemsize}
    (h : decodeNestedTensors itemsize bufs v = .ok nt) :
    decodeData itemsize bufs v = .ok (some nt) := by
  unfold decodeData
  split
  · cases h
  · exact bind_eq_ok.mpr ⟨nt, h, rfl⟩

lemma decodeMmFieldElem_eq_ok {bufs : List Buffer} {e : MultiModalFieldElem itemsize} {v : PyVal}
    (h : decodeData itemsize bufs v.wire = .ok e.data) :
    decodeMmFieldElem itemsize bufs (PyVal.dict [("modality", .str e.modality), ("key", .str e.key),
      ("data", v), ("field", encodeMmField e.field)]).wire = .ok e :=
  bind_eq_ok.mpr ⟨v.wire, rfl, bind_eq_ok.mpr ⟨e.data, h,
    bind_eq_ok.mpr ⟨(encodeMmField e.field).wire, rfl,
      bind_eq_ok.mpr ⟨e.field, decodeMmField_encode e.field, rfl⟩⟩⟩⟩

lemma encodeMmFieldElem_undone (e : MultiModalFieldElem itemsize) :
    Undone (encodeMmFieldElem z)
      (fun bufs v => decodeMmFieldElem itemsize bufs v.wire) e := by
  intro aux hne
  unfold encodeMmFieldElem
  cases hdata : e.data with
  | none =>
    refine ⟨List.prefix_refl _, fun bufs _ => decodeMmFieldElem_eq_ok ?_⟩
    rw [hdata]
    rfl
  | some nt =>
    obtain ⟨hpre, hread⟩ := encodeNestedTensors_undone (z := z) nt aux hne
    refine ⟨hpre, fun bufs hbufs => decodeMmFieldElem_eq_ok ?_⟩
    rw [hdata]
    exact decodeData_some (hread bufs hbufs)

lemma fromElems_values (item : MultiModalKwargsItem itemsize) :
    fromElems itemsize item.elems.values = .ok item := by
  have hpairs : item.elems.values.map (fun e => (e.key, e)) = item.elems.entries := by
    rw [Dict.values, List.map_map]
    calc item.elems.entries.map ((fun e => (e.key, e)) ∘ Prod.snd)
        = item.elems.entries.map id :=
          List.map_congr_left fun p hp => Prod.ext (item.keyed p hp) rfl
      _ = item.elems.entries := List.map_id _
  unfold fromElems
  simp only [hpairs, Dict.ofPairs_entries]
  exact dif_pos ⟨item.keyed, item.modality⟩

lemma mapM_wire {α : Type} {read : PyVal → Except PyError α} {vs : List PyVal} {l : List α}
    (h : vs.mapM (fun v => read v.wire) = .ok l) : (PyVal.wireList vs).mapM read = .ok l := by
  rw [PyVal.wireList_eq_map, List.mapM_map]
  exact h

lemma mapM_wireDict {α : Type} {read : String × PyVal → Except PyError α}
    {d : List (String × PyVal)} {l : List α}
    (h : d.mapM (fun p => read (p.1, p.2.wire)) = .ok l) :
    (PyVal.wireDict d).mapM read = .ok l := by
  rw [PyVal.wireDict_eq_map, List.mapM_map]
  exact h

lemma encodeMmItem_undone (item : MultiModalKwargsItem itemsize) :
    Undone (encodeMmItem z) (fun bufs v => decodeMmItem itemsize bufs v.wire) item := by
  intro aux hne
  obtain ⟨hpre, hread⟩ := encodeEach_undone (l := item.elems.values)
    (fun e _ => encodeMmFieldElem_undone (z := z) e) aux hne
  refine ⟨hpre, fun bufs hbufs => ?_⟩
  exact bind_eq_ok.mpr ⟨_, mapM_wire (hread bufs hbufs), fromElems_values item⟩

lemma encodeModality_undone (p : String × List (MultiModalKwargsItem itemsize)) :
    Undone (encodeModality z)
      (fun bufs q => decodeModality itemsize bufs (q.1, q.2.wire)) p := by
  intro aux hne
  obtain ⟨hpre, hread⟩ := encodeEach_undone (l := p.2)
    (fun item _ => encodeMmItem_undone (z := z) item) aux hne
  refine ⟨hpre, fun bufs hbufs => ?_⟩
  exact bind_eq_ok.mpr ⟨p.2, mapM_wire (hread bufs hbufs), rfl⟩

/-- A payload is read as it was written, wherever its tensors went. -/
theorem decode_encode_mm_items (sizeThreshold : Int) (items : MultiModalKwargsItems itemsize) :
    decode itemsize (encode sizeThreshold items) = .ok items := by
  obtain ⟨hpre, hread⟩ := encodeEach_undone (l := items.entries)
    (fun p _ => encodeModality_undone (z := sizeThreshold) p) [.bytes []]
    (List.cons_ne_nil _ _)
  obtain ⟨rest, hbufs⟩ := hpre
  have hmessage : encode sizeThreshold items = .message (.dict
      (encodeEach (encodeModality sizeThreshold) [.bytes []] items.entries).1) :: rest := by
    unfold encode encodeMmItems
    simp only [← hbufs]
    rfl
  have hagrees : Agrees (encode sizeThreshold items)
      (encodeEach (encodeModality sizeThreshold) [.bytes []] items.entries).2 := by
    rw [hmessage, ← hbufs]
    refine ⟨by simp, fun i hpos _ => ?_⟩
    obtain ⟨j, rfl⟩ := Nat.exists_eq_add_of_lt hpos
    rw [Nat.zero_add]
    rfl
  have hentries := mapM_wireDict (hread _ hagrees)
  rw [hmessage] at hentries ⊢
  refine bind_eq_ok.mpr ⟨items.entries, hentries, ?_⟩
  rw [Dict.ofPairs_entries]
  rfl

end VllmV1.Serial
