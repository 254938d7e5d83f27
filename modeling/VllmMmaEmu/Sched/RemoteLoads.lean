import VllmMmaEmu.KvCache.TableLengths
import VllmMmaEmu.Sched.SchedulerRuns

/-!
# Requests that wait for remote KVs

The scheduler does not keep how many tokens an asynchronous load brings. They are recorded
here beside the scheduler, for each turn of the loop over the waiting requests that begins a
load. Until the load has ended nothing that the scheduler does changes the length of the
request's table.
-/

namespace VllmV1

open Python

/-- A load that was begun: the tokens that were cached locally and those that the connector
brings, and the blocks that were in the table before. The scheduler asserts that there is
something to load. -/
structure RemoteLoad where
  numLocal : Int
  numExternal : Int
  numHeld : Nat
  numExternal_pos : 0 < numExternal

/-- The loads that were begun last, by request. -/
abbrev RemoteLoads := Ref → Option RemoteLoad

/-- The tokens whose KVs are there when the load has ended. -/
def RemoteLoad.numTokens (load : RemoteLoad) : Int := load.numLocal + load.numExternal

namespace Scheduler

/-- The blocks in the tables of a request. -/
def numBlocksOf (s : Scheduler) (r : Ref) : Nat :=
  (s.kvCacheManager.singleTypeManagers.map fun m =>
    (m.blocksOf (s.objs r).requestId).length).sum

/-- A registered request that waits for its load. -/
structure Awaits (s : Scheduler) (r : Ref) : Prop where
  registered : s.requests.get? (s.objs r).requestId = some r
  status : (s.objs r).status = .waitingForRemoteKvs

end Scheduler

namespace ScheduleState

/-- The variables after the status checks of the first request have passed. -/
def checked (answers : ScheduleAnswers) (st : ScheduleState) (r : Ref) (s : Scheduler) :
    ScheduleState := { st with sched := (s.checkGrammar answers r).2 }

/-- The load that `get_num_new_matched_tokens` announces for a request. -/
def announcedLoad (answers : ScheduleAnswers) (st : ScheduleState) (r : Ref) :
    Option RemoteLoad :=
  match st.findComputed answers r with
  | .ok (some c) =>
    if h : 0 < c.numExternalComputedTokens then
      some ⟨c.numNewLocalComputedTokens, c.numExternalComputedTokens, st.sched.numBlocksOf r, h⟩
    else none
  | _ => none

/-- The load for the first waiting request. -/
def firstLoad (answers : ScheduleAnswers) (st : ScheduleState) : Option (Ref × RemoteLoad) :=
  match st.sched.waiting.peekRequest with
  | .error _ => none
  | .ok item => match st.sched.checkRemoteKvs item.request with
    | .ok (true, s) =>
      ((st.checked answers item.request s).announcedLoad answers item.request).map
        fun load => (item.request, load)
    | _ => none

/-- The loads after a turn from `st` to `st'`: a load was begun if the first request waits
for it now. -/
def recordLoad (answers : ScheduleAnswers) (st st' : ScheduleState) (loads : RemoteLoads) :
    RemoteLoads :=
  match st.firstLoad answers with
  | none => loads
  | some (r, load) =>
    if (st'.sched.objs r).status = .waitingForRemoteKvs then
      fun r' => if r' = r then some load else loads r'
    else loads

/-- The loads after the loop over the waiting requests. -/
def loopLoads (answers : ScheduleAnswers) :
    (fuel : Nat) → ScheduleState → RemoteLoads → RemoteLoads
  | 0, _, loads => loads
  | fuel + 1, st, loads =>
    if st.sched.waiting.isEmpty = true ∨ st.tokenBudget ≤ 0 ∨
        st.sched.running.length = st.config.maxNumRunningReqs then loads
    else match st.waitingStep answers with
      | .error _ => loads
      | .ok (goOn, st') =>
        if goOn then loopLoads answers fuel st' (st.recordLoad answers st' loads)
        else st.recordLoad answers st' loads

/-- The states in which the turns of the loop begin, with the loads. -/
inductive TurnFrom (answers : ScheduleAnswers) (st₀ : ScheduleState) (loads₀ : RemoteLoads) :
    ScheduleState → RemoteLoads → Prop where
  | first : TurnFrom answers st₀ loads₀ st₀ loads₀
  | next {st st' : ScheduleState} {loads : RemoteLoads} (h : TurnFrom answers st₀ loads₀ st loads)
      (hstep : st.waitingStep answers = .ok (true, st')) :
      TurnFrom answers st₀ loads₀ st' (st.recordLoad answers st' loads)

end ScheduleState

namespace Scheduler

open ScheduleState

/-- `schedule` up to the loop over the waiting requests. -/
def startWaiting (s : Scheduler) : Except PyError ScheduleState := do
  let st ← (ScheduleState.start s).runningLoop s.running.length
  st.recordLoras

/-- The loads after a call of `schedule`. -/
def callLoads (s : Scheduler) (answers : ScheduleAnswers) (loads : RemoteLoads) : RemoteLoads :=
  match s.startWaiting with
  | .error _ => loads
  | .ok st =>
    if st.preemptedReqs = [] then st.loopLoads answers st.sched.waiting.items.length loads
    else loads

/-- A request that waits for its load waited before, and its tables are as long as then. -/
structure LeavesLoads (s s' : Scheduler) : Prop where
  config : s'.config = s.config
  awaits : ∀ r, s'.Awaits r → s.Awaits r ∧ (s'.objs r).requestId = (s.objs r).requestId
  tables : s.kvCacheManager.KeepsLengths {id | ∃ r, s'.Awaits r ∧ (s'.objs r).requestId = id}
    s'.kvCacheManager

variable {s s' s'' : Scheduler} {r : Ref} {ids : Set String}

namespace LeavesLoads

lemma trans (h : LeavesLoads s s') (h' : LeavesLoads s' s'') : LeavesLoads s s'' where
  config := h'.config.trans h.config
  awaits r hr := by
    obtain ⟨hr', hid'⟩ := h'.awaits r hr
    obtain ⟨hr, hid⟩ := h.awaits r hr'
    exact ⟨hr, hid'.trans hid⟩
  tables := by
    refine (h.tables.mono ?_).trans h'.tables
    rintro id ⟨r, hr, rfl⟩
    obtain ⟨hr', hid⟩ := h'.awaits r hr
    exact ⟨r, hr', hid.symm⟩

/-- No request comes to wait, and the tables of those that wait are kept. -/
lemma of_objs (hconfig : s'.config = s.config) (hrequests : s'.requests = s.requests)
    (hid : ∀ r, (s'.objs r).requestId = (s.objs r).requestId)
    (hstatus : ∀ r, (s'.objs r).status = .waitingForRemoteKvs →
      (s.objs r).status = .waitingForRemoteKvs)
    (hkv : s.kvCacheManager.KeepsLengths ids s'.kvCacheManager)
    (hids : ∀ r, s'.Awaits r → (s'.objs r).requestId ∈ ids) : LeavesLoads s s' where
  config := hconfig
  awaits r hr := by
    refine ⟨⟨?_, hstatus r hr.status⟩, hid r⟩
    rw [← hrequests, ← hid]
    exact hr.registered
  tables := by
    refine hkv.mono ?_
    rintro id ⟨r, hr, rfl⟩
    exact hids r hr

lemma refl (s : Scheduler) : LeavesLoads s s :=
  of_objs rfl rfl (fun _ => rfl) (fun _ h => h) (.refl Set.univ _) fun _ _ => Set.mem_univ _

/-- The request objects, the map and the tables are the same. -/
lemma of_same (hconfig : s'.config = s.config) (hrequests : s'.requests = s.requests)
    (hobjs : s'.objs = s.objs)
    (hkv : s.kvCacheManager.KeepsLengths Set.univ s'.kvCacheManager) : LeavesLoads s s' :=
  of_objs hconfig hrequests (fun r => by rw [hobjs]) (fun r h => by rwa [hobjs] at h) hkv
    fun _ _ => Set.mem_univ _

/-- A request object is replaced by one that does not wait, unless the old one did. -/
lemma replaces {request : Request} (h : ScheduleState.Replaces s s' r request)
    (hconfig : s'.config = s.config) (hrequests : s'.requests = s.requests)
    (hid : request.requestId = (s.objs r).requestId)
    (hstatus : request.status = .waitingForRemoteKvs →
      (s.objs r).status = .waitingForRemoteKvs)
    (hkv : s.kvCacheManager.KeepsLengths ids s'.kvCacheManager)
    (hids : ∀ r, s'.Awaits r → (s'.objs r).requestId ∈ ids) : LeavesLoads s s' := by
  refine of_objs hconfig hrequests (fun r' => ?_) (fun r' hr' => ?_) hkv hids
  · by_cases hne : r' = r
    · rw [hne, h.self, hid]
    · rw [h.others r' hne]
  · by_cases hne : r' = r
    · rw [hne, h.self] at hr'
      rw [hne]
      exact hstatus hr'
    · rwa [h.others r' hne] at hr'

lemma modify (s : Scheduler) (r : Ref) {f : Request → Request}
    (hid : (f (s.objs r)).requestId = (s.objs r).requestId)
    (hstatus : (f (s.objs r)).status = .waitingForRemoteKvs →
      (s.objs r).status = .waitingForRemoteKvs) : LeavesLoads s (s.modify r f) :=
  replaces ⟨if_pos rfl, fun _ hne => if_neg hne⟩ rfl rfl hid hstatus (.refl Set.univ _)
    fun _ _ => Set.mem_univ _

lemma foldlM {α : Type} {f : Scheduler → α → Except PyError Scheduler}
    (hf : ∀ s a s', f s a = .ok s' → LeavesLoads s s') {l : List α} (h : l.foldlM f s = .ok s') :
    LeavesLoads s s' :=
  foldlM_invariant (fun a _ s₁ s₂ hs₁ hstep => hs₁.trans (hf s₁ a s₂ hstep)) (refl s) h

end LeavesLoads

lemma Awaits.id_ne (h : s.Awaits r) {v : Ref} (hv : s.requests.get? (s.objs v).requestId = some v)
    (hstatus : (s.objs v).status ≠ .waitingForRemoteKvs) :
    (s.objs r).requestId ≠ (s.objs v).requestId := by
  intro hid
  have hget := h.registered
  rw [hid, hv] at hget
  obtain rfl := Option.some.inj hget
  exact hstatus h.status

end Scheduler

end VllmV1
