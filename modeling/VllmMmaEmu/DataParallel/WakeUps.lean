import VllmMmaEmu.DataParallel.Calls

/-!
# No engine sleeps while another works

Without aborts an engine at work stays at work until an all-reduce ends the wave. The client's
`FIRST_REQ` excludes no engine, since it names the engine by bytes; so only an engine at work is
left out of a wave.
-/

namespace DataParallel

open Function

variable {n m : Nat} {ρ : Type}

namespace System

variable {s s' : System n m ρ} {k : Nat}

/-- The all-reduces have ended `k` waves, and whoever is at work has told the others or is about
to. -/
structure WakeInv (k : Nat) (s : System n m ρ) : Prop where
  waves : WaveInv k s
  regular : ∀ e, (s.engines e).Regular
  noAbort : ∀ e ids, ¬ s.InFlight e (.abort ids)
  socket : ∀ c, ∀ excluded ∈ (s.clients c).firstReqSocket, ∀ e, excluded.neIndex e = true
  firstReqs : ∀ c, ∀ p ∈ s.firstReqs c, ∀ e, p.1.neIndex e = true
  summoned : s.Started k → ∀ e, (s.engines e).Active ∨ s.Summoned k e
  start : ∀ e excluded, s.InFlight e (.startDpWave k excluded) → s.Started k
  status : ∀ c, (k, true) ∈ s.statuses c → s.Started k
  client : ∀ c, (s.clients c).enginesRunning = true → (s.clients c).currentWave = k →
    s.Started k ∨ s.Asking k
  add : ∀ e request, s.InFlight e (.add request k) → s.Started k ∨ s.Asking k
  active : ∀ e, (s.engines e).Active → (s.Started k ∨ s.Asking k) ∨ s.Stale k
  stale : ∀ e, .startWave k ∈ s.outputs e → (s.engines e).Active

lemma wakeful_active : Wakeful (DPEngineCoreProc.Active : DPEngineCoreProc (n + 1) ρ → Prop) where
  running _ hphase hrun := ⟨hphase, Or.inl hrun⟩
  queue _ _ := Iff.rfl
  stepping _ h := ⟨nofun, h.2⟩
  phase _ h := h.1

lemma WakeInv.calls (h : WakeInv k s) : CallInv DPEngineCoreProc.Active k s where
  waves := h.waves
  regular := h.regular
  socket := h.socket
  firstReqs := h.firstReqs
  summoned := h.summoned
  start := h.start
  status := h.status
  client := h.client
  add := h.add
  active := h.active
  caller e he := (h.stale e he).1

lemma CallInv.wakeInv (h : CallInv DPEngineCoreProc.Active k s)
    (hnoAbort : ∀ e ids, ¬ s.InFlight e (.abort ids))
    (hstale : ∀ e, .startWave k ∈ s.outputs e → (s.engines e).Active) : WakeInv k s where
  waves := h.waves
  regular := h.regular
  noAbort := hnoAbort
  socket := h.socket
  firstReqs := h.firstReqs
  summoned := h.summoned
  start := h.start
  status := h.status
  client := h.client
  add := h.add
  active := h.active
  stale := hstale

lemma wakeInv_initial : WakeInv 0 ({} : System n m ρ) :=
  callInv_initial.wakeInv (by simp [InFlight]) (by simp)

/-- A step of the wave `k` adds no `ABORT`, an engine at work stays there, and only an engine at work
asks for the wave. -/
structure Steady (k : Nat) (s s' : System n m ρ) : Prop where
  noAbort : ∀ e ids, s'.InFlight e (.abort ids) → s.InFlight e (.abort ids)
  active : ∀ e, (s.engines e).Active → (s'.engines e).Active
  stale : ∀ e, .startWave k ∈ s'.outputs e → .startWave k ∈ s.outputs e ∨ (s'.engines e).Active

lemma WakeInv.of_steady (h : WakeInv k s) (hcalls : CallInv DPEngineCoreProc.Active k s')
    (hsteady : Steady k s s') : WakeInv k s' := by
  apply hcalls.wakeInv
  · exact fun e ids he => h.noAbort e ids (hsteady.noAbort e ids he)
  · intro e he
    rcases hsteady.stale e he with hold | hnew
    · exact hsteady.active e (h.stale e hold)
    · exact hnew

lemma steady_of_eq (hengines : s'.engines = s.engines)
    (houtputs : ∀ e, ∀ msg ∈ s'.outputs e, msg ∈ s.outputs e)
    (hin : ∀ e ids, s'.InFlight e (.abort ids) → s.InFlight e (.abort ids)) : Steady k s s' where
  noAbort := hin
  active _ he := hengines ▸ he
  stale e he := Or.inl (houtputs e _ he)

lemma steady_addRequest (c : Fin m) (request : ρ) (e : Fin (n + 1)) :
    Steady k s (s.addRequest c request e) := by
  have hin : ∀ b ids, (s.sendInput c e (.add request (s.clients c).currentWave)).InFlight b
      (.abort ids) → s.InFlight b (.abort ids) := by
    intro b ids hb
    exact (inFlight_sendInput.mp hb).resolve_right nofun
  simp only [System.addRequest]
  split_ifs
  all_goals exact steady_of_eq rfl (fun _ _ hmsg => hmsg) hin

lemma noAbort_sendStartWave (start : Option (Nat × Excluded (n + 1))) (e : Fin (n + 1))
    (ids : List ρ) (h : (s.sendStartWave start).InFlight e (.abort ids)) :
    s.InFlight e (.abort ids) := by
  cases start with
  | none => exact h
  | some p => exact (inFlight_sendStartWave.mp h).resolve_right nofun

lemma steady_receiveFront {c : Fin m} {changed : Bool}
    (hs : s.receiveFront c = some (s', changed)) : Steady k s s' := by
  obtain ⟨excluded, wave, rest, -, rfl, -⟩ := receiveFront_spec hs
  apply steady_of_eq (by simp)
  · rw [sendStartWave_outputs]
    exact fun _ _ hmsg => hmsg
  · exact noAbort_sendStartWave _

lemma steady_receiveBack {e : Fin (n + 1)} {changed : Bool}
    (hs : s.receiveBack e = some (s', changed)) : Steady k s s' := by
  obtain ⟨msg, rest, hmsg, rfl, -⟩ := receiveBack_spec hs
  apply steady_of_eq (by simp)
  · rw [sendStartWave_outputs]
    exact fun b x => mem_of_mem_update_tail hmsg
  · exact noAbort_sendStartWave _

lemma Steady.trans {s'' : System n m ρ} (h : Steady k s s') (h' : Steady k s' s'') :
    Steady k s s'' where
  noAbort e ids he := h.noAbort e ids (h'.noAbort e ids he)
  active e he := h'.active e (h.active e he)
  stale e he := by
    rcases h'.stale e he with hold | hnew
    · exact (h.stale e hold).imp_right (h'.active e)
    · exact Or.inr hnew

lemma steady_coordinate {front : Option (Fin m)} {back : Option (Fin (n + 1))}
    (hs : s.coordinate front back = some s') : Steady k s s' := by
  have hsame : ∀ s : System n m ρ, Steady k s s := fun s =>
    steady_of_eq rfl (fun _ _ hmsg => hmsg) fun _ _ he => he
  have hpublish : ∀ s : System n m ρ, Steady k s s.publish := fun s =>
    steady_of_eq rfl (fun _ _ hmsg => hmsg) fun _ _ he => he
  rcases coordinate_spec hs with rfl | ⟨s₁, s₂, _, _, hfront, hback, rfl⟩
  · exact hpublish s
  · have h₁ : Steady k s s₁ := by
      cases front with
      | none =>
        obtain ⟨rfl, -⟩ := Prod.mk.inj (Option.some.inj hfront)
        exact hsame s
      | some c => exact steady_receiveFront hfront
    have h₂ : Steady k s₁ s₂ := by
      cases back with
      | none =>
        obtain ⟨rfl, -⟩ := Prod.mk.inj (Option.some.inj hback)
        exact hsame s₁
      | some e => exact steady_receiveBack hback
    split_ifs
    · exact (h₁.trans h₂).trans (hpublish s₂)
    · exact h₁.trans h₂

section Engines

variable {e : Fin (n + 1)}

lemma steady_receive {source : Option (Fin m)} (hs : s.receive e source = some s') :
    Steady k s s' := by
  have hq := onlyQueues_receive hs
  constructor
  · exact fun b ids => (inFlight_receive hs).mp
  · intro b hb
    obtain ⟨queue, hengine⟩ := hq.engines b
    rw [hengine]
    exact hb
  · intro b hb
    exact Or.inl (hq.outputs ▸ hb)

lemma steady_setEngine {eng : DPEngineCoreProc (n + 1) ρ} {out : List EngineCoreOutputs}
    (hqueue : ∀ msg ∈ eng.inputQueue, msg ∈ (s.engines e).inputQueue)
    (hkept : (s.engines e).Active → eng.Active) (hout : .startWave k ∈ out → eng.Active) :
    Steady k s ((s.setEngine e eng).putOutputs e out) := by
  constructor
  · exact fun b ids hb => InFlight.of_setEngine (e := e) eng hqueue hb
  · intro b hb
    change ((s.setEngine e eng).engines b).Active
    by_cases hbe : b = e
    · subst hbe
      rw [setEngine_engines_self]
      exact hkept hb
    · rwa [setEngine_engines_of_ne hbe]
  · intro b hb
    change _ ∨ ((s.setEngine e eng).engines b).Active
    by_cases hbe : b = e
    · subst hbe
      rw [putOutputs_self] at hb
      rw [setEngine_engines_self]
      exact (List.mem_append.mp hb).imp_right hout
    · rw [putOutputs_of_ne hbe] at hb
      exact Or.inl hb

/-- No message but an `ABORT` takes the work from an engine. -/
lemma active_handleClientRequest [DecidableEq ρ] {eng : DPEngineCoreProc (n + 1) ρ}
    {msg : EngineCoreRequest (n + 1) ρ} (hmsg : ∀ ids, msg ≠ .abort ids)
    (hphase : eng.phase = .input) :
    (eng.Active → (eng.handleClientRequest e msg).1.Active) ∧
      (.startWave k ∈ (eng.handleClientRequest e msg).2 →
        (eng.handleClientRequest e msg).1.Active) := by
  cases msg with
  | add request wave =>
    have hrequests : ∀ eng' : DPEngineCoreProc (n + 1) ρ, eng'.phase = eng.phase →
        eng'.requests = eng.requests ++ [request] → eng'.Active := by
      intro eng' hphase' hreq
      exact ⟨by rw [hphase', hphase]; nofun, Or.inr (by simp [hreq])⟩
    simp only [DPEngineCoreProc.handleClientRequest, DPEngineCoreProc.addRequest]
    split_ifs
    all_goals exact ⟨fun _ => hrequests _ rfl rfl, fun _ => hrequests _ rfl rfl⟩
  | abort ids => exact absurd rfl (hmsg ids)
  | startDpWave wave excluded =>
    simp only [DPEngineCoreProc.handleClientRequest, DPEngineCoreProc.startDpWave]
    split_ifs
    · exact ⟨fun h => ⟨h.1, Or.inl rfl⟩, fun hout => by simp at hout⟩
    · exact ⟨fun h => h, fun hout => by simp at hout⟩

lemma WakeInv.not_abort (h : WakeInv k s) {msg : EngineCoreRequest (n + 1) ρ}
    (hmsg : s.InFlight e msg) (ids : List ρ) : msg ≠ .abort ids :=
  fun heq => h.noAbort e ids (heq ▸ hmsg)

lemma WakeInv.steady_handleRequest [DecidableEq ρ] (h : WakeInv k s)
    (hs : s.handleRequest e = some s') :
    Steady k s s' := by
  obtain ⟨hphase, msg, rest, hqueue, rfl⟩ := handleRequest_spec hs
  have hin : s.InFlight e msg := Or.inl (by simp [hqueue])
  obtain ⟨-, -, hqueue', -⟩ := handleClientRequest_spec (e := e)
    { s.engines e with inputQueue := rest } fun w => h.waves.wave_le hphase hin
  have hrest : ∀ x ∈ (DPEngineCoreProc.handleClientRequest { s.engines e with inputQueue := rest }
      e msg).1.inputQueue, x ∈ (s.engines e).inputQueue := by
    intro x hx
    rw [hqueue'] at hx
    rw [hqueue]
    exact List.mem_cons_of_mem msg hx
  have hactive : DPEngineCoreProc.Active { s.engines e with inputQueue := rest } ↔
      (s.engines e).Active := Iff.rfl
  obtain ⟨hkept, hout⟩ := active_handleClientRequest (e := e) (k := k) (h.not_abort hin)
    (show ({ s.engines e with inputQueue := rest } : DPEngineCoreProc (n + 1) ρ).phase = .input
      from hphase)
  exact steady_setEngine hrest (fun hold => hkept (hactive.mpr hold)) hout

lemma steady_enterStep (hs : s.enterStep e = some s') : Steady k s s' := by
  obtain ⟨-, rfl⟩ := enterStep_spec hs
  rw [← putOutputs_nil (s := s.setEngine e _) (e := e)]
  exact steady_setEngine (fun _ hx => hx) (fun hold => ⟨nofun, hold.2⟩) (by simp)

lemma not_continues_of_active {executed : Bool} (h : (s.engines e).Active) :
    ¬ s.Continues e executed := by
  rintro ⟨-, hreq, hrun⟩
  exact h.2.elim (fun hr => Bool.noConfusion (hrun.symm.trans hr)) fun hr => hr hreq

lemma WakeInv.steady_engineStep [DecidableEq ρ] (h : WakeInv k s) {executed : Bool}
    {finished : List ρ} (hs : s.engineStep e executed finished = some s') : Steady k s s' := by
  obtain ⟨-, hcond, rfl⟩ := engineStep_spec hs
  obtain ⟨hphase, -, hqueue⟩ := afterStep_spec { s.engines e with
    requests := (s.engines e).requests.filter (· ∉ finished)
    finishedReqIds := (s.engines e).requests.filter (· ∈ finished) } executed
  rw [← putOutputs_nil (s := s.setEngine e _) (e := e)]
  apply steady_setEngine (fun x hx => hqueue ▸ hx) _ (by simp)
  intro hold
  have hidle := fun hrun => ((h.regular e).idle hrun).1
  exact ⟨hphase, Or.inl (afterStep_running hidle
    (work_of_not_continues hcond.2 (not_continues_of_active hold)))⟩

lemma steady_afterAllReduce {result : Bool} (hs : s.afterAllReduce e result = some s') :
    Steady k s s' := by
  obtain ⟨hphase, rfl⟩ := afterAllReduce_spec hs
  cases result with
  | true =>
    simp only [afterAllReduce_true]
    exact steady_setEngine (fun _ hx => hx) (fun _ => ⟨nofun, Or.inl rfl⟩) (by simp)
  | false =>
    simp only [afterAllReduce_false]
    refine steady_setEngine (fun _ hx => hx) (fun hold => absurd hphase hold.1) fun hout => ?_
    split_ifs at hout <;> simp at hout

lemma WakeInv.allReduce (h : WakeInv k s) (hs : s.allReduce = some s') :
    ∃ k', WakeInv k' s' := by
  obtain ⟨k', hk'⟩ := h.calls.allReduce wakeful_active hs
  obtain ⟨hall, result, -, rfl⟩ := allReduce_spec hs
  have heq : (if result then k else k + 1) = k' :=
    ((h.waves.allReduce result hall).engines 0).symm.trans (hk'.waves.engines 0)
  refine ⟨k', hk'.wakeInv h.noAbort fun b hb => ?_⟩
  cases result with
  | true =>
    obtain rfl : k = k' := heq
    obtain ⟨u, hu⟩ := hall b
    have hrun : (s.engines b).enginesRunning = true := by
      by_contra hrun
      have hidle := ((h.regular b).idle (by simpa using hrun)).2
      simp [hu] at hidle
    exact ⟨nofun, Or.inl hrun⟩
  | false =>
    obtain rfl : k + 1 = k' := heq
    have hle := h.waves.known_le (h.waves.outputs b _ hb)
    simp only [EngineCoreOutputs.reaches] at hle
    omega

end Engines

section Runs

variable [DecidableEq ρ]

lemma WakeInv.step (h : WakeInv k s) {a : Action n m ρ}
    (ha : ∀ c ids e, a ≠ .abortRequests c ids e) (hs : s.step a = some s') :
    ∃ k', WakeInv k' s' := by
  by_cases hreduce : a = .allReduce
  · subst hreduce
    exact h.allReduce hs
  have hcalls : CallInv DPEngineCoreProc.Active k s' := by
    apply h.calls.step wakeful_active hreduce _ _ _ hs
    · intro e msg hmsg eng hphase hold
      exact (active_handleClientRequest (k := k) (h.not_abort hmsg) hphase).1 hold
    · intro e executed finished _ hcontinue _ hold
      exact absurd hcontinue (not_continues_of_active hold)
    · intro front e s₁ _ hfront hstarts
      obtain ⟨changed, hfront⟩ := hfront
      obtain ⟨rest, hmsg⟩ := hstarts.1
      have hsteady : Steady k s s₁ := by
        cases front with
        | none =>
          obtain ⟨rfl, -⟩ := Prod.mk.inj (Option.some.inj hfront)
          exact steady_of_eq rfl (fun _ _ hx => hx) fun _ _ hx => hx
        | some c => exact steady_receiveFront hfront
      rcases hsteady.stale e (by simp [hmsg]) with hold | hnew
      · exact hsteady.active e (h.stale e hold)
      · exact hnew
  have hsteady : Steady k s s' := by
    cases a with
    | addRequest c request e =>
      obtain rfl := Option.some.inj hs
      exact steady_addRequest c request e
    | abortRequests c ids e => exact absurd rfl (ha c ids e)
    | forwardFirstReq c =>
      simp only [System.step, System.forwardFirstReq] at hs
      split at hs
      · cases hs
      · obtain rfl := Option.some.inj hs
        exact steady_of_eq rfl (fun _ _ hx => hx) fun _ _ hx => hx
    | readStatus c count =>
      obtain ⟨status, -, rfl⟩ := readStatus_spec hs
      exact steady_of_eq rfl (fun _ _ hx => hx) fun _ _ hx => hx
    | coordinate front back => exact steady_coordinate hs
    | receive e source => exact steady_receive hs
    | handleRequest e => exact h.steady_handleRequest hs
    | enterStep e => exact steady_enterStep hs
    | step e executed finished => exact h.steady_engineStep hs
    | allReduce => exact absurd rfl hreduce
    | afterAllReduce e result => exact steady_afterAllReduce hs
  exact ⟨k, h.of_steady hcalls hsteady⟩

lemma WakeInv.run (h : WakeInv k s) {actions : List (Action n m ρ)}
    (hactions : ∀ c ids e, .abortRequests c ids e ∉ actions)
    (hrun : Runs.runEvents System.step s actions = some s') : ∃ k', WakeInv k' s' := by
  induction actions generalizing s k with
  | nil =>
    obtain rfl := Option.some.inj hrun
    exact ⟨k, h⟩
  | cons a actions ih =>
    obtain ⟨s₁, hs₁, hrest⟩ := Option.bind_eq_some_iff.mp hrun
    obtain ⟨k₁, h₁⟩ := h.step (fun c ids e ha => hactions c ids e (by simp [ha])) hs₁
    exact ih h₁ (fun c ids e hmem => hactions c ids e (List.mem_cons_of_mem a hmem)) hrest

end Runs

/-- The engine waits for a request in `_process_input_queue`. -/
def Asleep (s : System n m ρ) (e : Fin (n + 1)) : Prop :=
  (s.engines e).phase = .input ∧ (s.engines e).inputQueue = [] ∧
    (s.engines e).enginesRunning = false ∧ (s.engines e).hasRequests = false

/-- Once the messages are read, an engine with a request finds every other engine awake. -/
theorem awake_of_unfinished [DecidableEq ρ] {actions : List (Action n m ρ)}
    (hrun : Runs.runEvents System.step {} actions = some s)
    (hactions : ∀ c ids e, .abortRequests c ids e ∉ actions) (hquiet : s.Quiet)
    {e : Fin (n + 1)} (he : (s.engines e).requests ≠ []) (b : Fin (n + 1)) :
    ((s.engines b).enginesRunning = true ∨ (s.engines b).requests ≠ []) ∧ ¬ s.Asleep b := by
  obtain ⟨k, h⟩ := wakeInv_initial.run hactions hrun
  have hawake := (h.calls.awake_of_active hquiet ⟨(hquiet.settled e).2 false, Or.inr he⟩ b).2
  refine ⟨hawake, fun hasleep => ?_⟩
  obtain ⟨-, -, hrunning, hreq⟩ := hasleep
  rcases hawake with hb | hb
  · rw [hb] at hrunning
    exact Bool.noConfusion hrunning
  · simp [DPEngineCoreProc.hasRequests, DPEngineCoreProc.hasUnfinishedRequests, hb] at hreq

/-- A request on the first engine keeps the second awake. -/
theorem awake_of_unfinished_wake_up : ∃ s, Runs.runEvents System.step {} wakeUp = some s ∧
    (s.engines 0).requests = [7] ∧ ¬ s.Asleep 1 := by
  have hend : (Runs.runEvents System.step {} wakeUp).any (fun s : System 1 1 Nat => decide (
      (s.engines 0).requests = [7] ∧
      (∀ e, (s.engines e).inputQueue = [] ∧ s.startWaves e = [] ∧ s.outputs e = [] ∧
        (s.engines e).phase = .input ∧ ∀ c, s.inputs c e = []) ∧
      ∀ c, (s.clients c).firstReqSocket = [] ∧ s.firstReqs c = [] ∧ s.statuses c = [])) = true := by
    decide +kernel
  obtain ⟨s, hs, hcond⟩ := (Option.any_eq_true _ _).mp hend
  obtain ⟨hreq, hengines, hclients⟩ := of_decide_eq_true hcond
  have hquiet : s.Quiet := quiet_of_forall hengines hclients
  have hnoAbort : ∀ c ids e, .abortRequests c ids e ∉ wakeUp := by
    intro c ids e h
    simp [wakeUp] at h
  exact ⟨s, hs, hreq, (awake_of_unfinished hs hnoAbort hquiet (e := 0) (by simp [hreq]) 1).2⟩

end System

end DataParallel
