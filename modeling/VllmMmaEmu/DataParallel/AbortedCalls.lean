import VllmMmaEmu.DataParallel.Calls

/-!
# A wave whose first request is aborted

An engine that is sent a request of an earlier wave while it pauses tells the coordinator, which
starts the wave for all other engines. If the request is aborted before the engine has executed a
step, the engine has nothing to do and goes back to its input queue, and it never joins the wave.
Short of this the engines stay together.
-/

namespace DataParallel

open Function

variable {n m : Nat} {ρ : Type}

/-- The engine is in the wave: it runs, or it will perform a step. -/
def DPEngineCoreProc.Awake {N : Nat} (eng : DPEngineCoreProc N ρ) : Prop :=
  eng.phase ≠ .reduced false ∧ (eng.enginesRunning = true ∨ eng.hasRequests = true)

namespace System

variable {s s' : System n m ρ} {k : Nat}

lemma wakeful_awake : Wakeful (DPEngineCoreProc.Awake : DPEngineCoreProc (n + 1) ρ → Prop) where
  running _ hphase hrun := ⟨hphase, Or.inl hrun⟩
  queue _ _ := Iff.rfl
  stepping _ h := ⟨nofun, h.2⟩
  phase _ h := h.1

lemma hasRequests_abortRequests [DecidableEq ρ] {eng : DPEngineCoreProc (n + 1) ρ} (ids : List ρ)
    (h : eng.hasRequests = true) : (eng.abortRequests ids).hasRequests = true := by
  simp only [DPEngineCoreProc.hasRequests, DPEngineCoreProc.hasUnfinishedRequests,
    DPEngineCoreProc.abortRequests, Bool.or_eq_true, Bool.not_eq_true', List.isEmpty_eq_false_iff]
    at h ⊢
  rcases h with h | h
  · obtain ⟨r, hr⟩ := List.exists_mem_of_ne_nil _ h
    by_cases hids : r ∈ ids
    · refine Or.inr (List.append_ne_nil_of_right_ne_nil _ ?_)
      exact List.ne_nil_of_mem (List.mem_filter.mpr ⟨hr, decide_eq_true hids⟩)
    · exact Or.inl (List.ne_nil_of_mem (List.mem_filter.mpr ⟨hr, decide_eq_true hids⟩))
  · exact Or.inr (List.append_ne_nil_of_left_ne_nil h _)

lemma awake_handleClientRequest [DecidableEq ρ] {e : Fin (n + 1)}
    {eng : DPEngineCoreProc (n + 1) ρ} (msg : EngineCoreRequest (n + 1) ρ)
    (hphase : eng.phase = .input) (h : eng.Awake) : (eng.handleClientRequest e msg).1.Awake := by
  cases msg with
  | add request wave =>
    have hrequests : ∀ eng' : DPEngineCoreProc (n + 1) ρ, eng'.phase = eng.phase →
        eng'.requests = eng.requests ++ [request] → eng'.Awake := by
      intro eng' hphase' hreq
      refine ⟨by rw [hphase', hphase]; nofun, Or.inr ?_⟩
      simp [DPEngineCoreProc.hasRequests, DPEngineCoreProc.hasUnfinishedRequests, hreq]
    simp only [DPEngineCoreProc.handleClientRequest, DPEngineCoreProc.addRequest]
    split_ifs
    all_goals exact hrequests _ rfl rfl
  | abort ids => exact ⟨h.1, h.2.imp_right (hasRequests_abortRequests ids)⟩
  | startDpWave wave excluded =>
    simp only [DPEngineCoreProc.handleClientRequest, DPEngineCoreProc.startDpWave]
    split_ifs
    · exact ⟨h.1, Or.inl rfl⟩
    · exact h

/-- The step leaves no engine out of a wave. Where an engine has nothing to step and the coordinator
has started its wave, it is being woken; where the coordinator acts on a `start_wave` and leaves out
the engine that sent it, this engine runs or has requests. -/
def Joins (s : System n m ρ) : Action n m ρ → Prop
  | .step e executed _ => s.Continues e executed → s.Started (s.engines e).currentWave →
      s.Summoned (s.engines e).currentWave e
  | .coordinate front (some e) => ∀ s₁, s.AfterFront front s₁ →
      s₁.StartsFor e (s₁.engines e).currentWave →
        (s₁.engines e).enginesRunning = true ∨ (s₁.engines e).hasRequests = true
  | _ => True

lemma CallInv.joins [DecidableEq ρ] (h : CallInv DPEngineCoreProc.Awake k s)
    {a : Action n m ρ} (ha : s.Joins a) (hs : s.step a = some s') :
    ∃ k', CallInv DPEngineCoreProc.Awake k' s' := by
  by_cases hreduce : a = .allReduce
  · subst hreduce
    exact h.allReduce wakeful_awake hs
  refine ⟨k, h.step wakeful_awake hreduce ?_ ?_ ?_ hs⟩
  · exact fun e msg _ eng => awake_handleClientRequest msg
  · rintro e executed finished rfl hcontinue hstarted hawake
    have hwave : (s.engines e).currentWave = k := by
      rw [← h.waves.engines e, DPEngineCoreProc.nextWave_eq hawake.1]
    rw [← hwave] at hstarted ⊢
    exact ha hcontinue hstarted
  · rintro front e s₁ rfl hfront hstarts
    obtain ⟨changed, hfront'⟩ := hfront
    have h₁ : CallInv DPEngineCoreProc.Awake k s₁ := by
      cases front with
      | none =>
        obtain ⟨rfl, -⟩ := Prod.mk.inj (Option.some.inj hfront')
        exact h
      | some c => exact h.receiveFront hfront'
    obtain ⟨rest, hmsg⟩ := hstarts.1
    have hphase := h₁.caller e (by simp [hmsg])
    have hwave : (s₁.engines e).currentWave = k := by
      rw [← h₁.waves.engines e, DPEngineCoreProc.nextWave_eq hphase]
    exact ⟨hphase, ha s₁ ⟨changed, hfront'⟩ (hwave ▸ hstarts)⟩

/-- In every run whose steps leave no engine out, once the messages are read: if an engine runs,
every engine runs or has requests. -/
theorem joined_of_reached [DecidableEq ρ]
    (h : Runs.Reached (fun s => s = {}) Joins (fun s a s' => s.step a = some s') s)
    (hquiet : s.Quiet) {e : Fin (n + 1)} (he : (s.engines e).enginesRunning = true)
    (b : Fin (n + 1)) :
    (s.engines b).enginesRunning = true ∨ (s.engines b).hasRequests = true := by
  have hinv : ∃ k, CallInv DPEngineCoreProc.Awake k s := by
    apply h.invariant (I := fun s => ∃ k, CallInv DPEngineCoreProc.Awake k s)
    · rintro _ rfl
      exact ⟨0, callInv_initial⟩
    · rintro s a s' ⟨k, hk⟩ ha hs
      exact hk.joins ha hs
  obtain ⟨k, hk⟩ := hinv
  exact (hk.awake_of_active hquiet ⟨(hquiet.settled e).2 false, Or.inl he⟩ b).2

/-- The first request is aborted in the wave that it starts. -/
def abortedFirst (c : Fin m) (e e' : Fin (n + 1)) : List (Action n m Nat) :=
  [.addRequest c 7 e, .forwardFirstReq c, .abortRequests c [7] e, .coordinate (some c) none,
    .receive e (some c), .receive e (some c), .receive e none, .receive e' none, .handleRequest e,
    .handleRequest e, .handleRequest e, .handleRequest e', .readStatus c 1]

/-- Both engines join. -/
theorem joined_of_reached_aborted_first :
    ∃ s : System 1 1 Nat, Runs.runEvents System.step {} (abortedFirst 0 0 1) = some s ∧
      (s.engines 1).enginesRunning = true ∧
      ((s.engines 0).enginesRunning = true ∨ (s.engines 0).hasRequests = true) := by
  have hend : (Runs.runEvents System.step {} (abortedFirst 0 0 1)).any
      (fun s : System 1 1 Nat => decide (
        (s.engines 1).enginesRunning = true ∧
        (∀ e, (s.engines e).inputQueue = [] ∧ s.startWaves e = [] ∧ s.outputs e = [] ∧
          (s.engines e).phase = .input ∧ ∀ c, s.inputs c e = []) ∧
        ∀ c, (s.clients c).firstReqSocket = [] ∧ s.firstReqs c = [] ∧ s.statuses c = [])) =
      true := by
    decide +kernel
  obtain ⟨s, hs, hcond⟩ := (Option.any_eq_true _ _).mp hend
  obtain ⟨hrun, hengines, hclients⟩ := of_decide_eq_true hcond
  have hallowed : ∀ a ∈ abortedFirst 0 0 1, ∀ s : System 1 1 Nat, s.Joins a := by
    simp [abortedFirst, Joins]
  have hreached : Runs.Reached (fun s : System 1 1 Nat => s = {}) Joins
      (fun s a s' => s.step a = some s') s := .of_runEvents (.start rfl) hallowed hs
  exact ⟨s, hs, hrun, joined_of_reached hreached (quiet_of_forall hengines hclients) hrun 0⟩

/-- A note goes out with the request that it is about. -/
def forwardsTogether : List (Action n m ρ) → Bool
  | .addRequest c _ _ :: .forwardFirstReq c' :: rest => decide (c = c') && forwardsTogether rest
  | .forwardFirstReq _ :: _ => false
  | _ :: rest => forwardsTogether rest
  | [] => true

/-- A request is aborted only after it was added, by the same client at the same engine. -/
def abortsAdded [DecidableEq ρ] (added : List (Fin m × ρ × Fin (n + 1))) :
    List (Action n m ρ) → Bool
  | .addRequest c request e :: rest => abortsAdded ((c, request, e) :: added) rest
  | .abortRequests c ids e :: rest =>
    ids.all (fun request => decide ((c, request, e) ∈ added)) && abortsAdded added rest
  | _ :: rest => abortsAdded added rest
  | [] => true

/-- Two engines run a wave for the first request. When it is over, the client has not heard of it
yet and adds a second request, which it aborts at once. -/
def abortedStale (c : Fin m) (e e' : Fin (n + 1)) : List (Action n m Nat) :=
  [.addRequest c 7 e, .forwardFirstReq c, .coordinate (some c) none, .receive e (some c),
    .receive e none, .receive e' none, .handleRequest e, .handleRequest e, .handleRequest e',
    .readStatus c 1] ++
    (List.replicate 31 [.enterStep e, .step e true []]).flatten ++
    [.enterStep e, .step e true [7]] ++
    (List.replicate 32 [.enterStep e', .step e' false []]).flatten ++
    [.allReduce, .afterAllReduce e false, .afterAllReduce e' false, .addRequest c 8 e,
      .abortRequests c [8] e, .receive e (some c), .receive e (some c), .handleRequest e,
      .handleRequest e, .enterStep e, .step e false [], .coordinate none (some e),
      .coordinate none (some e), .receive e none, .receive e' none, .handleRequest e,
      .handleRequest e', .readStatus c 2]

set_option maxRecDepth 10000 in
/-- The second engine runs, and the first one waits for a request. -/
theorem not_joined_aborted_stale :
    forwardsTogether (abortedStale (0 : Fin 1) (0 : Fin 2) 1) = true ∧
      abortsAdded [] (abortedStale (0 : Fin 1) (0 : Fin 2) 1) = true ∧
      ∃ s : System 1 1 Nat, Runs.runEvents System.step {} (abortedStale 0 0 1) = some s ∧
        s.Quiet ∧ (s.engines 1).enginesRunning = true ∧ (s.engines 0).enginesRunning = false ∧
        (s.engines 0).hasRequests = false := by
  have hend : (Runs.runEvents System.step {} (abortedStale 0 0 1)).any
      (fun s : System 1 1 Nat => decide (
        ((s.engines 1).enginesRunning = true ∧ (s.engines 0).enginesRunning = false ∧
          (s.engines 0).hasRequests = false) ∧
        (∀ e, (s.engines e).inputQueue = [] ∧ s.startWaves e = [] ∧ s.outputs e = [] ∧
          (s.engines e).phase = .input ∧ ∀ c, s.inputs c e = []) ∧
        ∀ c, (s.clients c).firstReqSocket = [] ∧ s.firstReqs c = [] ∧ s.statuses c = [])) =
      true := by
    decide +kernel
  obtain ⟨s, hs, hcond⟩ := (Option.any_eq_true _ _).mp hend
  obtain ⟨hsplit, hengines, hclients⟩ := of_decide_eq_true hcond
  exact ⟨by decide +kernel, by decide +kernel, s, hs, quiet_of_forall hengines hclients, hsplit⟩

end System

end DataParallel
