import VllmMmaEmu.DataParallel.WaveNumbers

/-!
# Who is called to a wave

An engine at work is known to the coordinator, or a message that tells it is on its way. When the
coordinator has started a wave, every engine is awake or the message that wakes it is on its way. What
awake means is left open: it holds at least of an engine that runs, and an engine may stop being awake
only before the coordinator has started the wave or when it is being woken.
-/

namespace DataParallel

open Function

variable {n m : Nat} {ρ : Type}

/-- The engine does not pause: it runs or has a request. -/
def DPEngineCoreProc.Active {N : Nat} (eng : DPEngineCoreProc N ρ) : Prop :=
  eng.phase ≠ .reduced false ∧ (eng.enginesRunning = true ∨ eng.requests ≠ [])

/-- What the busy loop keeps. -/
structure DPEngineCoreProc.Regular {N : Nat} (eng : DPEngineCoreProc N ρ) : Prop where
  idle : eng.enginesRunning = false →
    eng.stepCounter = 0 ∧ (eng.phase = .input ∨ eng.phase = .stepping)
  reducing : ∀ u, eng.phase = .reducing u → (u = true ↔ eng.requests ≠ [])
  paused : eng.phase = .reduced false → eng.requests = []

lemma DPEngineCoreProc.Regular.of_input {N : Nat} {eng : DPEngineCoreProc N ρ}
    (hphase : eng.phase = .input) (hidle : eng.enginesRunning = false → eng.stepCounter = 0) :
    eng.Regular :=
  ⟨fun hrun => ⟨hidle hrun, Or.inl hphase⟩, by simp [hphase], by simp [hphase]⟩

namespace System

variable {s s' : System n m ρ} {k : Nat}

/-- The coordinator knows that the engines run wave `k`. -/
def Started (k : Nat) (s : System n m ρ) : Prop :=
  s.coordinator.currentWave = k ∧ s.coordinator.enginesRunning = true

/-- A client is telling it. -/
def Asking (k : Nat) (s : System n m ρ) : Prop :=
  s.coordinator.currentWave = k ∧ ∃ c, (s.clients c).firstReqSocket ≠ [] ∨ s.firstReqs c ≠ []

/-- An engine is telling it. -/
def Stale (k : Nat) (s : System n m ρ) : Prop :=
  ∃ e, .startWave k ∈ s.outputs e

/-- The engine is being woken for wave `k`. -/
def Summoned (k : Nat) (s : System n m ρ) (e : Fin (n + 1)) : Prop :=
  ∃ excluded : Excluded (n + 1), excluded.neIndex e = true ∧
    s.InFlight e (.startDpWave k excluded)

lemma Summoned.of_inFlight {e : Fin (n + 1)} (h : s.Summoned k e)
    (hin : ∀ msg, s.InFlight e msg → s'.InFlight e msg) : s'.Summoned k e := by
  obtain ⟨excluded, hne, hmsg⟩ := h
  exact ⟨excluded, hne, hin _ hmsg⟩

/-- No message is on its way or waits in a queue, and no engine stands after an all-reduce. -/
structure Quiet (s : System n m ρ) : Prop where
  inputQueue : ∀ e, (s.engines e).inputQueue = []
  inputs : ∀ c e, s.inputs c e = []
  startWaves : ∀ e, s.startWaves e = []
  socket : ∀ c, (s.clients c).firstReqSocket = []
  firstReqs : ∀ c, s.firstReqs c = []
  statuses : ∀ c, s.statuses c = []
  settled : s.Settled

lemma quiet_of_forall
    (hengines : ∀ e, (s.engines e).inputQueue = [] ∧ s.startWaves e = [] ∧ s.outputs e = [] ∧
      (s.engines e).phase = .input ∧ ∀ c, s.inputs c e = [])
    (hclients : ∀ c, (s.clients c).firstReqSocket = [] ∧ s.firstReqs c = [] ∧ s.statuses c = []) :
    s.Quiet where
  inputQueue e := (hengines e).1
  inputs c e := (hengines e).2.2.2.2 c
  startWaves e := (hengines e).2.1
  socket c := (hclients c).1
  firstReqs c := (hclients c).2.1
  statuses c := (hclients c).2.2
  settled e := ⟨(hengines e).2.2.1, by simp [(hengines e).2.2.2.1]⟩

/-- An engine that runs is awake. Being awake does not depend on the input queue, and it ends with
the wave at the latest. -/
structure Wakeful (awake : DPEngineCoreProc (n + 1) ρ → Prop) : Prop where
  running : ∀ eng : DPEngineCoreProc (n + 1) ρ, eng.phase ≠ .reduced false →
    eng.enginesRunning = true → awake eng
  queue : ∀ (eng : DPEngineCoreProc (n + 1) ρ) queue,
    awake { eng with inputQueue := queue } ↔ awake eng
  stepping : ∀ eng, awake eng → awake { eng with phase := .stepping }
  phase : ∀ eng, awake eng → eng.phase ≠ .reduced false

/-- The all-reduces have ended `k` waves. Whoever is at work has told the others or is about to, and
when the coordinator has started the wave, whoever is not awake is being woken. -/
structure CallInv (awake : DPEngineCoreProc (n + 1) ρ → Prop) (k : Nat) (s : System n m ρ) :
    Prop where
  waves : WaveInv k s
  regular : ∀ e, (s.engines e).Regular
  socket : ∀ c, ∀ excluded ∈ (s.clients c).firstReqSocket, ∀ e, excluded.neIndex e = true
  firstReqs : ∀ c, ∀ p ∈ s.firstReqs c, ∀ e, p.1.neIndex e = true
  summoned : s.Started k → ∀ e, awake (s.engines e) ∨ s.Summoned k e
  start : ∀ e excluded, s.InFlight e (.startDpWave k excluded) → s.Started k
  status : ∀ c, (k, true) ∈ s.statuses c → s.Started k
  client : ∀ c, (s.clients c).enginesRunning = true → (s.clients c).currentWave = k →
    s.Started k ∨ s.Asking k
  add : ∀ e request, s.InFlight e (.add request k) → s.Started k ∨ s.Asking k
  active : ∀ e, (s.engines e).Active → (s.Started k ∨ s.Asking k) ∨ s.Stale k
  caller : ∀ e, .startWave k ∈ s.outputs e → (s.engines e).phase ≠ .reduced false

section

variable {awake : DPEngineCoreProc (n + 1) ρ → Prop}

lemma callInv_initial : CallInv awake 0 ({} : System n m ρ) where
  waves := waveInv_initial
  regular _ := ⟨fun _ => ⟨rfl, Or.inl rfl⟩, nofun, nofun⟩
  socket _ _ h := by simp at h
  firstReqs _ _ h := by simp at h
  summoned h := by simp [Started] at h
  start _ _ h := by simp [InFlight] at h
  status _ h := by simp at h
  client _ h := by simp at h
  add _ _ h := by simp [InFlight] at h
  active _ h := by simp [DPEngineCoreProc.Active] at h
  caller _ h := by simp at h

lemma WaveInv.coordinator_eq (h : WaveInv k s) {c : Fin m} (hc : (s.clients c).currentWave = k) :
    s.coordinator.currentWave = k :=
  (h.known_le h.coordinator).antisymm (hc ▸ h.clients c)

lemma currentWave_of_covered (h : s.Started k ∨ s.Asking k) : s.coordinator.currentWave = k :=
  h.elim And.left And.left

section Clients

variable {c : Fin m} {e : Fin (n + 1)}

lemma CallInv.sendInput (h : CallInv awake k s) {msg : EngineCoreRequest (n + 1) ρ}
    (hwaves : WaveInv k (s.sendInput c e msg))
    (hstart : ∀ w excluded, msg ≠ .startDpWave w excluded)
    (hadd : ∀ request, msg = .add request k → s.Started k ∨ s.Asking k) :
    CallInv awake k (s.sendInput c e msg) where
  waves := hwaves
  regular := h.regular
  socket := h.socket
  firstReqs := h.firstReqs
  summoned hs b := (h.summoned hs b).imp_right fun hb =>
    hb.of_inFlight fun _ hmsg => inFlight_sendInput.mpr (Or.inl hmsg)
  start b x hb := by
    rcases inFlight_sendInput.mp hb with hb | ⟨-, hb⟩
    · exact h.start b x hb
    · exact absurd hb.symm (hstart k x)
  status := h.status
  client := h.client
  add b request hb := by
    rcases inFlight_sendInput.mp hb with hb | ⟨-, hb⟩
    · exact h.add b request hb
    · exact hadd request hb.symm
  active := h.active
  caller := h.caller

/-- A client's note to the coordinator may move on, but it is not dropped. -/
lemma Asking.setClient (h : s.Asking k) {client : DPAsyncMPClient (n + 1)}
    (hsocket : (s.clients c).firstReqSocket ≠ [] →
      client.firstReqSocket ≠ [] ∨ s.firstReqs c ≠ []) : (s.setClient c client).Asking k := by
  obtain ⟨hwave, d, hd⟩ := h
  refine ⟨hwave, d, ?_⟩
  by_cases hdc : d = c
  · subst hdc
    simp only [System.setClient, update_self]
    exact hd.elim hsocket Or.inr
  · simpa only [System.setClient, update_of_ne hdc] using hd

lemma CallInv.setClient (h : CallInv awake k s) {client : DPAsyncMPClient (n + 1)}
    (hwave : client.currentWave ≤ s.coordinator.currentWave)
    (hkept : (s.clients c).firstReqSocket ≠ [] →
      client.firstReqSocket ≠ [] ∨ s.firstReqs c ≠ [])
    (hsocket : ∀ excluded ∈ client.firstReqSocket, ∀ e, excluded.neIndex e = true)
    (hclient : client.enginesRunning = true → client.currentWave = k →
      s.Started k ∨ (s.setClient c client).Asking k) :
    CallInv awake k (s.setClient c client) where
  waves := h.waves.setClient client hwave
  regular := h.regular
  socket d := by
    by_cases hd : d = c
    · subst hd
      simpa only [System.setClient, update_self] using hsocket
    · simpa only [System.setClient, update_of_ne hd] using h.socket d
  firstReqs := h.firstReqs
  summoned := h.summoned
  start := h.start
  status := h.status
  client d := by
    by_cases hd : d = c
    · subst hd
      intro hrun hw
      simp only [System.setClient, update_self] at hrun hw
      exact hclient hrun hw
    · simp only [System.setClient, update_of_ne hd]
      exact fun hrun hw => (h.client d hrun hw).imp_right (Asking.setClient · hkept)
  add e request he := (h.add e request he).imp_right (Asking.setClient · hkept)
  active e he := (h.active e he).imp_left (Or.imp_right (Asking.setClient · hkept))
  caller := h.caller

lemma CallInv.addRequest (h : CallInv awake k s) {request : ρ} :
    CallInv awake k (s.addRequest c request e) := by
  have hwaves := h.waves.addRequest c request e
  simp only [System.addRequest] at hwaves ⊢
  split_ifs at hwaves ⊢ with hrunning
  · -- the note is pushed with the request
    have hset : CallInv awake k (s.setClient c { s.clients c with
        firstReqSocket := (s.clients c).firstReqSocket ++ [.identity e] }) := by
      refine h.setClient (h.waves.clients c) (fun _ => Or.inl (by simp)) ?_ ?_
      · intro x hx b
        rcases List.mem_append.mp hx with hx | hx
        · exact h.socket c x hx b
        · rw [List.mem_singleton.mp hx]
          rfl
      · exact fun hrun => absurd hrun (by simpa using hrunning)
    refine hset.sendInput hwaves (by simp) fun r hr => Or.inr ?_
    injection hr with _ hw
    exact ⟨h.waves.coordinator_eq hw, c, Or.inl (by simp [System.setClient])⟩
  · refine h.sendInput hwaves (by simp) fun r hr => ?_
    injection hr with _ hw
    exact h.client c (by simpa using hrunning) hw

lemma CallInv.pushFirstReq (h : CallInv awake k s) {p : Excluded (n + 1) × Nat}
    (hp : ∀ e, p.1.neIndex e = true) :
    CallInv awake k { s with firstReqs := update s.firstReqs c (s.firstReqs c ++ [p]) } := by
  have hasking : s.Asking k →
      Asking k { s with firstReqs := update s.firstReqs c (s.firstReqs c ++ [p]) } := by
    rintro ⟨hwave, d, hd⟩
    refine ⟨hwave, d, hd.imp_right fun hd => ?_⟩
    by_cases hdc : d = c
    · subst hdc
      simp
    · simpa [update_of_ne hdc] using hd
  exact {
    waves := ⟨h.waves.engines, h.waves.coordinator, h.waves.clients, h.waves.statuses,
      h.waves.inFlight, h.waves.outputs, h.waves.completed⟩
    regular := h.regular
    socket := h.socket
    firstReqs := by
      intro d q hq
      by_cases hdc : d = c
      · subst hdc
        simp only [update_self, List.mem_append, List.mem_singleton] at hq
        rcases hq with hq | rfl
        · exact h.firstReqs d q hq
        · exact hp
      · simp only [update_of_ne hdc] at hq
        exact h.firstReqs d q hq
    summoned := h.summoned
    start := h.start
    status := h.status
    client := fun d hrun hw => (h.client d hrun hw).imp_right hasking
    add := fun e request he => (h.add e request he).imp_right hasking
    active := fun e he => (h.active e he).imp_left (Or.imp_right hasking)
    caller := h.caller }

lemma CallInv.forwardFirstReq (h : CallInv awake k s) (hs : s.forwardFirstReq c = some s') :
    CallInv awake k s' := by
  rw [System.forwardFirstReq] at hs
  split at hs
  · cases hs
  · next target rest hsocket =>
    obtain rfl := Option.some.inj hs
    have hpush := h.pushFirstReq (c := c) (p := (target, (s.clients c).currentWave))
      (h.socket c target (by simp [hsocket]))
    refine hpush.setClient (h.waves.clients c) (fun _ => Or.inr (by simp)) ?_ ?_
    · exact fun x hx => h.socket c x (by simp [hsocket, hx])
    · exact fun _ hw => Or.inr ⟨h.waves.coordinator_eq hw, c, Or.inr (by simp [System.setClient])⟩

lemma CallInv.readStatus (h : CallInv awake k s) {count : Nat} (hs : s.readStatus c count = some s') :
    CallInv awake k s' := by
  obtain ⟨status, hmem, rfl⟩ := readStatus_spec hs
  have hset : CallInv awake k (s.setClient c { s.clients c with
      currentWave := status.1, enginesRunning := status.2 }) := by
    refine h.setClient (h.waves.statuses c status hmem) Or.inl (h.socket c) fun hrun hw => ?_
    obtain ⟨wave, running⟩ := status
    obtain rfl : wave = k := hw
    obtain rfl : running = true := hrun
    exact Or.inl (h.status c hmem)
  exact {
    waves := h.waves.readStatus hs
    regular := hset.regular
    socket := hset.socket
    firstReqs := hset.firstReqs
    summoned := hset.summoned
    start := hset.start
    status := fun d hd => hset.status d (mem_update_drop hd)
    client := hset.client
    add := hset.add
    active := hset.active
    caller := hset.caller }

end Clients

section Coordinator

variable {c : Fin m} {e : Fin (n + 1)}

lemma CallInv.publish (h : CallInv awake k s) : CallInv awake k s.publish where
  waves := h.waves.publish
  regular := h.regular
  socket := h.socket
  firstReqs := h.firstReqs
  summoned := h.summoned
  start := h.start
  status c hc := by
    rcases List.mem_append.mp hc with hc | hc
    · exact h.status c hc
    · obtain ⟨hwave, hrun⟩ := Prod.mk.inj (List.mem_singleton.mp hc)
      exact ⟨hwave.symm, hrun.symm⟩
  client := h.client
  add := h.add
  active := h.active
  caller := h.caller

lemma CallInv.startWave (h : CallInv awake k s) {wave : Nat} {excluded : Excluded (n + 1)}
    (firstReqs : Fin m → List (Excluded (n + 1) × Nat))
    (outputs : Fin (n + 1) → List EngineCoreOutputs)
    (hwaves : WaveInv k (sendStartWave { s with
      coordinator := ⟨wave, true⟩, firstReqs, outputs } (some (wave, excluded))))
    (hfirstReqs : ∀ c, ∀ p ∈ firstReqs c, p ∈ s.firstReqs c)
    (houtputs : ∀ e, ∀ msg ∈ outputs e, msg ∈ s.outputs e)
    (hle : s.coordinator.currentWave ≤ wave)
    (hwake : wave = k → ∀ e, awake (s.engines e) ∨ excluded.neIndex e = true)
    (hstale : wave ≠ k → s.Stale k → ∃ e, .startWave k ∈ outputs e) :
    CallInv awake k (sendStartWave { s with
      coordinator := ⟨wave, true⟩, firstReqs, outputs } (some (wave, excluded))) := by
  have hwavek : wave ≤ k := hwaves.known_le hwaves.coordinator
  have hstarted : s.Started k ∨ s.Asking k → Started k (sendStartWave { s with
      coordinator := ⟨wave, true⟩, firstReqs, outputs } (some (wave, excluded))) :=
    fun hs => ⟨hwavek.antisymm (currentWave_of_covered hs ▸ hle), rfl⟩
  exact {
    waves := hwaves
    regular := h.regular
    socket := h.socket
    firstReqs := fun c p hp => h.firstReqs c p (hfirstReqs c p hp)
    summoned := by
      rintro ⟨hwave, -⟩ b
      obtain rfl : wave = k := hwave
      exact (hwake rfl b).imp_right fun hb =>
        ⟨excluded, hb, inFlight_sendStartWave.mpr (Or.inr rfl)⟩
    start := by
      intro b x hb
      rcases inFlight_sendStartWave.mp hb with hb | hb
      · exact hstarted (Or.inl (h.start b x hb))
      · injection hb with hw _
        exact ⟨hw.symm, rfl⟩
    status := fun c hc => hstarted (Or.inl (h.status c hc))
    client := fun c hrun hw => Or.inl (hstarted (h.client c hrun hw))
    add := by
      intro b request hb
      rcases inFlight_sendStartWave.mp hb with hb | hb
      · exact Or.inl (hstarted (h.add b request hb))
      · cases hb
    active := by
      intro b hb
      rcases h.active b hb with hs | hs
      · exact Or.inl (Or.inl (hstarted hs))
      · by_cases hk : wave = k
        · exact Or.inl (Or.inl ⟨hk, rfl⟩)
        · exact Or.inr (hstale hk hs)
    caller := fun b hb => h.caller b (houtputs b _ hb) }

lemma CallInv.dropMessage (h : CallInv awake k s)
    (firstReqs : Fin m → List (Excluded (n + 1) × Nat))
    (outputs : Fin (n + 1) → List EngineCoreOutputs)
    (hwaves : WaveInv k { s with firstReqs, outputs })
    (hfirstReqs : ∀ c, ∀ p ∈ firstReqs c, p ∈ s.firstReqs c)
    (houtputs : ∀ e, ∀ msg ∈ outputs e, msg ∈ s.outputs e)
    (hasking : s.Asking k → s.Started k ∨ Asking k { s with firstReqs, outputs })
    (hstale : s.Stale k → s.Started k ∨ Stale k { s with firstReqs, outputs }) :
    CallInv awake k { s with firstReqs, outputs } := by
  have hcovered : s.Started k ∨ s.Asking k →
      s.Started k ∨ Asking k { s with firstReqs, outputs } :=
    fun hs => hs.elim Or.inl hasking
  exact {
    waves := hwaves
    regular := h.regular
    socket := h.socket
    firstReqs := fun c p hp => h.firstReqs c p (hfirstReqs c p hp)
    summoned := h.summoned
    start := h.start
    status := h.status
    client := fun c hrun hw => hcovered (h.client c hrun hw)
    add := fun b request hb => hcovered (h.add b request hb)
    active := by
      intro b hb
      rcases h.active b hb with hs | hs
      · exact Or.inl (hcovered hs)
      · exact (hstale hs).imp_left Or.inl
    caller := fun b hb => h.caller b (houtputs b _ hb) }

lemma CallInv.receiveFront (h : CallInv awake k s) {changed : Bool}
    (hs : s.receiveFront c = some (s', changed)) : CallInv awake k s' := by
  have hwaves := (h.waves.receiveFront hs).inv
  obtain ⟨excluded, wave, rest, hmsg, rfl, -⟩ := receiveFront_spec hs
  have hrest : ∀ d, ∀ p ∈ update s.firstReqs c rest d, p ∈ s.firstReqs d :=
    fun d p => mem_of_mem_update_tail hmsg
  cases hrun : s.coordinator.enginesRunning with
  | true =>
    simp only [DPCoordinatorProc.handleFront, hrun, Bool.not_true, Bool.false_eq_true,
      if_false, System.sendStartWave] at hwaves ⊢
    exact h.dropMessage _ s.outputs hwaves hrest (fun _ _ hx => hx)
      (fun hs => Or.inl ⟨hs.1, hrun⟩) Or.inr
  | false =>
    simp only [DPCoordinatorProc.handleFront, hrun, Bool.not_false, if_true] at hwaves ⊢
    refine h.startWave _ s.outputs hwaves hrest (fun _ _ hx => hx) le_rfl ?_
      fun _ hs => hs
    intro _ e
    refine Or.inr ?_
    split_ifs
    · rfl
    · exact h.firstReqs c (excluded, wave) (by simp [hmsg]) e

/-- The coordinator acts on a `start_wave` of an engine. -/
def StartsFor (s : System n m ρ) (e : Fin (n + 1)) (wave : Nat) : Prop :=
  (∃ rest, s.outputs e = .startWave wave :: rest) ∧ (wave > s.coordinator.currentWave ∨
    wave = s.coordinator.currentWave ∧ s.coordinator.enginesRunning = false)

lemma CallInv.receiveBack (h : CallInv awake k s) {changed : Bool}
    (hcaller : s.StartsFor e k → awake (s.engines e))
    (hs : s.receiveBack e = some (s', changed)) : CallInv awake k s' := by
  have hwaves := (h.waves.receiveBack hs).inv
  obtain ⟨msg, rest, hmsg, rfl, -⟩ := receiveBack_spec hs
  have hrest : ∀ b, ∀ x ∈ update s.outputs e rest b, x ∈ s.outputs b :=
    fun b x => mem_of_mem_update_tail hmsg
  have hkept : msg ≠ .startWave k → s.Stale k →
      ∃ b, .startWave k ∈ update s.outputs e rest b := by
    rintro hne ⟨b, hb⟩
    exact ⟨b, mem_update_tail_of_ne hmsg hb hne.symm⟩
  have hknown : s.Known msg.reaches := h.waves.outputs e msg (by simp [hmsg])
  cases msg with
  | waveComplete wave =>
    by_cases hle : s.coordinator.currentWave ≤ wave
    · simp only [DPCoordinatorProc.handleBack, if_pos hle, System.sendStartWave] at hwaves ⊢
      -- no client can have told anybody of a wave that the coordinator has not seen
      have hnot : ¬ (s.Started k ∨ s.Asking k) := by
        intro hcovered
        have hwave := currentWave_of_covered hcovered
        have := h.waves.known_le hknown
        simp only [EngineCoreOutputs.reaches] at this
        omega
      exact {
        waves := hwaves
        regular := h.regular
        socket := h.socket
        firstReqs := h.firstReqs
        summoned := fun hs => Bool.noConfusion hs.2
        start := fun b x hb => absurd (Or.inl (h.start b x hb)) hnot
        status := fun c hc => absurd (Or.inl (h.status c hc)) hnot
        client := fun c hrun hw => absurd (h.client c hrun hw) hnot
        add := fun b request hb => absurd (h.add b request hb) hnot
        active := fun b hb => Or.inr (hkept (by simp) ((h.active b hb).resolve_left hnot))
        caller := fun b hb => h.caller b (hrest b _ hb) }
    · simp only [DPCoordinatorProc.handleBack, if_neg hle, System.sendStartWave] at hwaves ⊢
      exact h.dropMessage s.firstReqs _ hwaves (fun _ _ hx => hx) hrest Or.inr
        fun hs => Or.inr (hkept (by simp) hs)
  | startWave wave =>
    by_cases hgt : wave > s.coordinator.currentWave ∨
        wave = s.coordinator.currentWave ∧ !s.coordinator.enginesRunning
    · simp only [DPCoordinatorProc.handleBack, if_pos hgt] at hwaves ⊢
      refine h.startWave s.firstReqs _ hwaves (fun _ _ hx => hx) hrest (by omega) ?_ ?_
      · rintro rfl b
        by_cases hb : b = e
        · subst hb
          exact Or.inl (hcaller ⟨⟨rest, hmsg⟩, by simpa using hgt⟩)
        · exact Or.inr (by simpa [Excluded.neIndex] using Ne.symm hb)
      · exact fun hne => hkept fun heq => hne (by injection heq)
    · simp only [DPCoordinatorProc.handleBack, if_neg hgt, System.sendStartWave] at hwaves ⊢
      refine h.dropMessage s.firstReqs _ hwaves (fun _ _ hx => hx) hrest Or.inr ?_
      intro hs
      by_cases hwave : wave = k
      · subst hwave
        have := h.waves.known_le h.waves.coordinator
        refine Or.inl ⟨by omega, ?_⟩
        by_contra hrun
        exact hgt (by simp only [Bool.not_eq_true] at hrun; simp [hrun]; omega)
      · exact Or.inr (hkept (fun heq => hwave (by injection heq)) hs)

/-- The system between the two halves of a pass of the coordinator. -/
def AfterFront (s : System n m ρ) (front : Option (Fin m)) (s₁ : System n m ρ) : Prop :=
  ∃ changed, front.elim (some (s, false)) s.receiveFront = some (s₁, changed)

lemma CallInv.coordinate (h : CallInv awake k s) {front : Option (Fin m)}
    {back : Option (Fin (n + 1))}
    (hcaller : ∀ e s₁, back = some e → s.AfterFront front s₁ → s₁.StartsFor e k →
      awake (s₁.engines e))
    (hs : s.coordinate front back = some s') : CallInv awake k s' := by
  rcases coordinate_spec hs with rfl | ⟨s₁, s₂, _, _, hfront, hback, rfl⟩
  · exact h.publish
  · have h₁ : CallInv awake k s₁ := by
      cases front with
      | none =>
        obtain ⟨rfl, -⟩ := Prod.mk.inj (Option.some.inj hfront)
        exact h
      | some c => exact h.receiveFront hfront
    have h₂ : CallInv awake k s₂ := by
      cases back with
      | none =>
        obtain ⟨rfl, -⟩ := Prod.mk.inj (Option.some.inj hback)
        exact h₁
      | some e => exact h₁.receiveBack (hcaller e s₁ rfl ⟨_, hfront⟩) hback
    split_ifs
    · exact h₂.publish
    · exact h₂

end Coordinator

section Engines

variable {e : Fin (n + 1)}

lemma CallInv.receive (h : CallInv awake k s) (hawake : Wakeful awake) {source : Option (Fin m)}
    (hs : s.receive e source = some s') : CallInv awake k s' := by
  have hq := onlyQueues_receive hs
  have hin : ∀ b x, s'.InFlight b x ↔ s.InFlight b x := fun b x => inFlight_receive hs
  have hstarted : s'.Started k ↔ s.Started k := by
    rw [Started, Started, hq.coordinator]
  have hcovered : s'.Started k ∨ s'.Asking k ↔ s.Started k ∨ s.Asking k := by
    rw [hstarted, Asking, Asking, hq.coordinator, hq.clients, hq.firstReqs]
  have hstale : s'.Stale k ↔ s.Stale k := by
    rw [Stale, Stale, hq.outputs]
  exact {
    waves := h.waves.receive hs
    regular := by
      intro b
      obtain ⟨queue, hb⟩ := hq.engines b
      rw [hb]
      exact ⟨(h.regular b).idle, (h.regular b).reducing, (h.regular b).paused⟩
    socket := hq.clients ▸ h.socket
    firstReqs := hq.firstReqs ▸ h.firstReqs
    summoned := by
      intro hs b
      obtain ⟨queue, hb⟩ := hq.engines b
      rw [hb, hawake.queue]
      exact (h.summoned (hstarted.mp hs) b).imp_right fun hb =>
        hb.of_inFlight fun x => (hin b x).mpr
    start := fun b x hb => hstarted.mpr (h.start b x ((hin b _).mp hb))
    status := fun c hc => hstarted.mpr (h.status c (hq.statuses ▸ hc))
    client := fun c hrun hw =>
      hcovered.mpr (h.client c (hq.clients ▸ hrun) (hq.clients ▸ hw))
    add := fun b request hb => hcovered.mpr (h.add b request ((hin b _).mp hb))
    active := by
      intro b hactive
      obtain ⟨queue, hb⟩ := hq.engines b
      rw [hb] at hactive
      exact (h.active b hactive).imp hcovered.mpr hstale.mpr
    caller := by
      intro b hmem
      obtain ⟨queue, hb⟩ := hq.engines b
      rw [hb]
      exact h.caller b (hq.outputs ▸ hmem) }

/-- What an engine may do on its own: it falls asleep only when nobody has started the wave or it is
being woken, it forgets no wake-up, and when it gets to work the coordinator knows or is told. -/
structure Moves (awake : DPEngineCoreProc (n + 1) ρ → Prop) (k : Nat) (s : System n m ρ)
    (e : Fin (n + 1)) (eng : DPEngineCoreProc (n + 1) ρ) (out : List EngineCoreOutputs) :
    Prop where
  regular : eng.Regular
  phase : eng.phase ≠ .reduced false
  queue : ∀ msg ∈ eng.inputQueue, msg ∈ (s.engines e).inputQueue
  kept : s.Started k → awake (s.engines e) → awake eng ∨ s.Summoned k e
  woken : eng.Active → (s.engines e).Active ∨ (s.Started k ∨ s.Asking k) ∨ .startWave k ∈ out
  summons : ∀ excluded : Excluded (n + 1), excluded.neIndex e = true →
    .startDpWave k excluded ∈ (s.engines e).inputQueue →
      awake eng ∨ .startDpWave k excluded ∈ eng.inputQueue

lemma CallInv.setEngine (h : CallInv awake k s) {eng : DPEngineCoreProc (n + 1) ρ}
    {out : List EngineCoreOutputs} (hwaves : WaveInv k ((s.setEngine e eng).putOutputs e out))
    (ha : Moves awake k s e eng out) : CallInv awake k ((s.setEngine e eng).putOutputs e out) := by
  have hin : ∀ b x, ((s.setEngine e eng).putOutputs e out).InFlight b x → s.InFlight b x :=
    fun b x hb => InFlight.of_setEngine (e := e) eng ha.queue hb
  have hself : s.Summoned k e →
      awake eng ∨ ((s.setEngine e eng).putOutputs e out).Summoned k e := by
    rintro ⟨x, hx, hb | hb⟩
    · refine (ha.summons x hx hb).imp_right fun hmem => ⟨x, hx, Or.inl ?_⟩
      simpa [System.putOutputs] using hmem
    · exact Or.inr ⟨x, hx, Or.inr hb⟩
  exact {
    waves := hwaves
    regular := by
      intro b
      change ((s.setEngine e eng).engines b).Regular
      by_cases hbe : b = e
      · subst hbe
        rw [setEngine_engines_self]
        exact ha.regular
      · rw [setEngine_engines_of_ne hbe]
        exact h.regular b
    socket := h.socket
    firstReqs := h.firstReqs
    summoned := by
      intro hs b
      change awake ((s.setEngine e eng).engines b) ∨ _
      by_cases hbe : b = e
      · subst hbe
        rw [setEngine_engines_self]
        rcases h.summoned hs b with hb | hb
        · exact (ha.kept hs hb).elim Or.inl hself
        · exact hself hb
      · rw [setEngine_engines_of_ne hbe]
        refine (h.summoned hs b).imp_right fun hb => hb.of_inFlight fun x hx => ?_
        refine hx.imp_left fun hx => ?_
        change x ∈ ((s.setEngine e eng).engines b).inputQueue
        rwa [setEngine_engines_of_ne hbe]
    start := fun b x hb => h.start b x (hin b _ hb)
    status := h.status
    client := h.client
    add := fun b request hb => h.add b request (hin b _ hb)
    active := by
      intro b hb
      change ((s.setEngine e eng).engines b).Active at hb
      have hstale : s.Stale k → ((s.setEngine e eng).putOutputs e out).Stale k := by
        rintro ⟨d, hd⟩
        refine ⟨d, ?_⟩
        by_cases hde : d = e
        · subst hde
          rw [putOutputs_self]
          exact List.mem_append_left _ hd
        · rwa [putOutputs_of_ne hde]
      by_cases hbe : b = e
      · subst hbe
        rw [setEngine_engines_self] at hb
        rcases ha.woken hb with hold | hcovered | hout
        · exact (h.active b hold).imp_right hstale
        · exact Or.inl hcovered
        · refine Or.inr ⟨b, ?_⟩
          rw [putOutputs_self]
          exact List.mem_append_right _ hout
      · rw [setEngine_engines_of_ne hbe] at hb
        exact (h.active b hb).imp_right hstale
    caller := by
      intro b hb
      change ((s.setEngine e eng).engines b).phase ≠ .reduced false
      by_cases hbe : b = e
      · subst hbe
        rw [setEngine_engines_self]
        exact ha.phase
      · rw [putOutputs_of_ne hbe] at hb
        rw [setEngine_engines_of_ne hbe]
        exact h.caller b hb }

lemma CallInv.handleRequest [DecidableEq ρ] (h : CallInv awake k s) (hawake : Wakeful awake)
    (hkept : ∀ msg, s.InFlight e msg → ∀ eng : DPEngineCoreProc (n + 1) ρ, eng.phase = .input →
      awake eng → awake (eng.handleClientRequest e msg).1)
    (hs : s.handleRequest e = some s') : CallInv awake k s' := by
  have hwaves := (h.waves.handleRequest hs).1
  obtain ⟨hphase, msg, rest, hqueue, rfl⟩ := handleRequest_spec hs
  have hin : s.InFlight e msg := Or.inl (by simp [hqueue])
  have hwave : (s.engines e).currentWave = k := by
    rw [← h.waves.engines e, DPEngineCoreProc.nextWave_eq (by simp [hphase])]
  have hreg := h.regular e
  have hidle := fun hrun => (hreg.idle hrun).1
  have hrest : ∀ x ∈ rest, x ∈ (s.engines e).inputQueue := by
    intro x hx
    rw [hqueue]
    exact List.mem_cons_of_mem msg hx
  have hstays : s.Started k → awake (s.engines e) →
      awake (({ s.engines e with inputQueue := rest } : DPEngineCoreProc (n + 1) ρ)
        |>.handleClientRequest e msg).1 ∨ s.Summoned k e :=
    fun _ hold => Or.inl (hkept msg hin _ hphase ((hawake.queue _ rest).mpr hold))
  have hother : (∀ x, msg ≠ .startDpWave k x) → ∀ excluded : Excluded (n + 1),
      .startDpWave k excluded ∈ (s.engines e).inputQueue → .startDpWave k excluded ∈ rest := by
    intro hne excluded hmem
    rw [hqueue, List.mem_cons] at hmem
    exact hmem.resolve_left fun heq => hne excluded heq.symm
  refine h.setEngine hwaves ?_
  cases msg with
  | abort ids =>
    refine ⟨.of_input hphase hidle, by simp [DPEngineCoreProc.handleClientRequest,
      DPEngineCoreProc.abortRequests, hphase], hrest, hstays, ?_,
      fun x _ hmem => Or.inr (hother (by simp) x hmem)⟩
    rintro ⟨-, hwork⟩
    refine Or.inl ⟨by simp [hphase], hwork.imp_right fun hreq hnil => hreq ?_⟩
    simp [DPEngineCoreProc.handleClientRequest, DPEngineCoreProc.abortRequests, hnil]
  | add request wave =>
    have hle : wave ≤ k := h.waves.known_le (h.waves.inFlight e _ hin wave rfl)
    -- with an old wave the engine runs already or reports it
    have hwoken : wave = k → s.Started k ∨ s.Asking k := by
      rintro rfl
      exact h.add e request hin
    have hmsgs := hother (by simp)
    simp only [DPEngineCoreProc.handleClientRequest, DPEngineCoreProc.addRequest, hwave,
      if_neg (not_lt.mpr hle)] at hstays ⊢
    split_ifs at hstays ⊢ with hne hrun
    · exact ⟨.of_input hphase hidle, by simp [hphase], hrest, hstays,
        fun _ => Or.inr (Or.inr (by simp)), fun x _ hmem => Or.inr (hmsgs x hmem)⟩
    · exact ⟨.of_input hphase hidle, by simp [hphase], hrest, hstays,
        fun _ => Or.inl ⟨by simp [hphase], Or.inl (by simpa using hrun)⟩,
        fun x _ hmem => Or.inr (hmsgs x hmem)⟩
    · exact ⟨.of_input hphase hidle, by simp [hphase], hrest, hstays,
        fun _ => Or.inr (Or.inl (hwoken (not_not.mp hne))),
        fun x _ hmem => Or.inr (hmsgs x hmem)⟩
  | startDpWave wave excluded =>
    simp only [DPEngineCoreProc.handleClientRequest, DPEngineCoreProc.startDpWave, hwave] at hstays ⊢
    split_ifs at hstays ⊢ with hnew
    · have hwavek : wave = k :=
        (h.waves.known_le (h.waves.inFlight e _ hin wave rfl)).antisymm hnew.2
      exact ⟨.of_input hphase (by simp), by simp [hphase], hrest, hstays,
        fun _ => Or.inr (Or.inl (Or.inl (h.start e excluded (hwavek ▸ hin)))),
        fun _ _ _ => Or.inl (hawake.running _ (by simp [hphase]) rfl)⟩
    · refine ⟨⟨hreg.idle, hreg.reducing, hreg.paused⟩, by simp [hphase], hrest, hstays,
        Or.inl, fun x hx hmem => Or.inr ?_⟩
      rw [hqueue, List.mem_cons] at hmem
      refine hmem.resolve_left fun heq => hnew ?_
      injection heq with hw hexcluded
      exact ⟨hexcluded ▸ hx, hw.le⟩

lemma CallInv.enterStep (h : CallInv awake k s) (hawake : Wakeful awake)
    (hs : s.enterStep e = some s') : CallInv awake k s' := by
  have hwaves := (h.waves.enterStep hs).1
  obtain ⟨hphase, rfl⟩ := enterStep_spec hs
  rw [← putOutputs_nil (s := s.setEngine e _) (e := e)] at hwaves ⊢
  refine h.setEngine hwaves ⟨⟨fun hrun => ?_, nofun, nofun⟩, nofun, fun _ hx => hx, ?_, ?_, ?_⟩
  · exact ⟨((h.regular e).idle hrun).1, Or.inr rfl⟩
  · exact fun _ hold => Or.inl (hawake.stepping _ hold)
  · exact fun hnew => Or.inl ⟨by rw [hphase]; nofun, hnew.2⟩
  · exact fun _ _ hmem => Or.inr hmem

/-- The step of an engine at work: it does not stop before an all-reduce says so. -/
lemma afterStep_regular {eng : DPEngineCoreProc (n + 1) ρ} {executed : Bool}
    (hidle : eng.enginesRunning = false → eng.stepCounter = 0) : (eng.afterStep executed).Regular := by
  simp only [DPEngineCoreProc.afterStep]
  split_ifs with hcontinue hcounter
  · exact .of_input rfl hidle
  · exact .of_input rfl (by simp)
  · refine ⟨fun hrun => ?_, ?_, by simp⟩
    · have hzero := hidle hrun
      simp [hzero] at hcounter
    · intro u hu
      injection hu with hu
      simp [← hu, DPEngineCoreProc.hasUnfinishedRequests]

/-- A step runs the engine unless there was nothing to do. -/
lemma afterStep_running {eng : DPEngineCoreProc (n + 1) ρ} {executed : Bool}
    (hidle : eng.enginesRunning = false → eng.stepCounter = 0)
    (hwork : executed = true ∨ eng.enginesRunning = true ∨ eng.requests ≠ []) :
    (eng.afterStep executed).enginesRunning = true := by
  simp only [DPEngineCoreProc.afterStep]
  split_ifs with hcontinue hcounter
  · simp only [DPEngineCoreProc.hasUnfinishedRequests] at hcontinue
    rcases hwork with hwork | hwork | hwork
    all_goals simp [hwork] at hcontinue
  · rfl
  · by_contra hrun
    have hzero := hidle (by simpa using hrun)
    simp [hzero] at hcounter

/-- The engine has nothing to step: this is where the busy loop continues. -/
def Continues (s : System n m ρ) (e : Fin (n + 1)) (executed : Bool) : Prop :=
  executed = false ∧ (s.engines e).requests = [] ∧ (s.engines e).enginesRunning = false

lemma work_of_not_continues [DecidableEq ρ] {executed : Bool} {finished : List ρ}
    (hfinished : executed = false → finished = []) (h : ¬ s.Continues e executed) :
    executed = true ∨ (s.engines e).enginesRunning = true ∨
      (s.engines e).requests.filter (· ∉ finished) ≠ [] := by
  cases executed with
  | true => exact Or.inl rfl
  | false =>
    refine Or.inr ?_
    by_cases hreq : (s.engines e).requests = []
    · refine Or.inl ?_
      by_contra hrun
      exact h ⟨rfl, hreq, by simpa using hrun⟩
    · exact Or.inr (by simpa [hfinished rfl] using hreq)

lemma CallInv.engineStep [DecidableEq ρ] (h : CallInv awake k s) (hawake : Wakeful awake)
    {executed : Bool} {finished : List ρ}
    (hcontinue : s.Continues e executed → s.Started k → awake (s.engines e) → s.Summoned k e)
    (hs : s.engineStep e executed finished = some s') : CallInv awake k s' := by
  have hwaves := (h.waves.engineStep hs).1
  obtain ⟨hphase, hcond, rfl⟩ := engineStep_spec hs
  set eng : DPEngineCoreProc (n + 1) ρ := { s.engines e with
    requests := (s.engines e).requests.filter (· ∉ finished)
    finishedReqIds := (s.engines e).requests.filter (· ∈ finished) } with heng
  have hidle : eng.enginesRunning = false → eng.stepCounter = 0 :=
    fun hrun => ((h.regular e).idle hrun).1
  obtain ⟨hphase', -, hqueue⟩ := afterStep_spec eng executed
  rw [← putOutputs_nil (s := s.setEngine e _) (e := e)] at hwaves ⊢
  refine h.setEngine hwaves ⟨afterStep_regular hidle, hphase', fun x hx => hqueue ▸ hx, ?_, ?_,
    fun _ _ hmem => Or.inr (hqueue ▸ hmem)⟩
  · intro hstarted hold
    by_cases hcont : s.Continues e executed
    · exact Or.inr (hcontinue hcont hstarted hold)
    · exact Or.inl (hawake.running _ hphase' (afterStep_running hidle
      (work_of_not_continues hcond.2 hcont)))
  · rintro ⟨-, hnew⟩
    refine Or.inl ⟨by rw [hphase]; nofun, ?_⟩
    by_contra hnone
    obtain ⟨hrun, hreq⟩ := not_or.mp hnone
    have hreq : (s.engines e).requests = [] := not_not.mp hreq
    have hexecuted : executed = false := by
      by_contra hne
      exact hcond.1 (by simpa using hne) hreq
    simp [heng, DPEngineCoreProc.afterStep, DPEngineCoreProc.hasUnfinishedRequests, hreq,
      hexecuted, hrun] at hnew

lemma CallInv.afterAllReduce (h : CallInv awake k s) (hawake : Wakeful awake) {result : Bool}
    (hs : s.afterAllReduce e result = some s') : CallInv awake k s' := by
  obtain ⟨hphase, hs'⟩ := afterAllReduce_spec hs
  cases result with
  | true =>
    have hwaves := (h.waves.resume hs).1
    subst hs'
    simp only [afterAllReduce_true] at hwaves ⊢
    have hrun : (s.engines e).enginesRunning = true := by
      by_contra hrun
      have hidle := ((h.regular e).idle (by simpa using hrun)).2
      simp [hphase] at hidle
    refine h.setEngine hwaves ⟨⟨nofun, nofun, nofun⟩, nofun, fun _ hx => hx,
      fun _ _ => Or.inl (hawake.running _ nofun rfl),
      fun _ => Or.inl ⟨by rw [hphase]; nofun, Or.inl hrun⟩, fun _ _ hmem => Or.inr hmem⟩
  | false =>
    have hwaves := (h.waves.nextWave hphase hs).1
    subst hs'
    simp only [afterAllReduce_false] at hwaves ⊢
    have hreq := (h.regular e).paused hphase
    refine h.setEngine hwaves ⟨⟨fun _ => ⟨rfl, Or.inl rfl⟩, nofun, nofun⟩, nofun, fun _ hx => hx,
      fun _ hold => absurd hphase (hawake.phase _ hold), fun hnew => ?_,
      fun _ _ hmem => Or.inr hmem⟩
    exact absurd hreq (hnew.2.resolve_left nofun)

lemma CallInv.allReduce (h : CallInv awake k s) (hawake : Wakeful awake)
    (hs : s.allReduce = some s') : ∃ k', CallInv awake k' s' := by
  obtain ⟨hall, result, hresult, rfl⟩ := allReduce_spec hs
  have hwaves := h.waves.allReduce result hall
  have hactive : ∀ b, (s.engines b).phase ≠ .reduced false := by
    intro b
    obtain ⟨u, hu⟩ := hall b
    rw [hu]
    nofun
  have hrun : ∀ b, (s.engines b).enginesRunning = true := by
    intro b
    by_contra hrun
    obtain ⟨u, hu⟩ := hall b
    have hidle := ((h.regular b).idle (by simpa using hrun)).2
    simp [hu] at hidle
  cases result with
  | true => exact ⟨k, {
      waves := hwaves
      regular := fun b => ⟨fun hb => absurd (hrun b) (by simp at hb; simp [hb]), nofun, nofun⟩
      socket := h.socket
      firstReqs := h.firstReqs
      summoned := fun _ b => Or.inl (hawake.running _ nofun (hrun b))
      start := h.start
      status := h.status
      client := h.client
      add := h.add
      active := fun b _ => h.active b ⟨hactive b, Or.inl (hrun b)⟩
      caller := fun _ _ => nofun }⟩
  | false =>
    have hknown : ∀ w, s.Known w → w ≠ k + 1 := by
      intro w hw
      have := h.waves.known_le hw
      omega
    have hcoord := h.waves.known_le h.waves.coordinator
    have hreq : ∀ b, (s.engines b).requests = [] := by
      intro b
      obtain ⟨u, hu⟩ := hall b
      by_contra hne
      have htrue := ((h.regular b).reducing u hu).mpr hne
      exact Bool.noConfusion (hresult.mpr ⟨b, htrue ▸ hu⟩)
    exact ⟨k + 1, {
      waves := hwaves
      regular := fun b => ⟨fun hb => absurd (hrun b) (by simp at hb; simp [hb]), nofun,
        fun _ => hreq b⟩
      socket := h.socket
      firstReqs := h.firstReqs
      summoned := fun hs => absurd hs.1 (hknown _ h.waves.coordinator)
      start := fun b x hb => absurd rfl (hknown _ (h.waves.inFlight b _ hb _ rfl))
      status := fun c hc => absurd (h.waves.statuses c _ hc) (by simp only; omega)
      client := fun c _ hw => absurd (h.waves.clients c) (by simp only at hw; omega)
      add := fun b r hb => absurd rfl (hknown _ (h.waves.inFlight b _ hb _ rfl))
      active := fun b hb => absurd rfl hb.1
      caller := fun b hb => absurd rfl (hknown _ (h.waves.outputs b _ hb)) }⟩

end Engines

/-- One step other than an all-reduce, for a notion of awake that the messages of the input queue
keep. Where an engine falls asleep or leaves itself out of a wave, it has to be woken by others. -/
lemma CallInv.step [DecidableEq ρ] (h : CallInv awake k s) (hawake : Wakeful awake)
    {a : Action n m ρ} (ha : a ≠ .allReduce)
    (hkept : ∀ e msg, s.InFlight e msg → ∀ eng : DPEngineCoreProc (n + 1) ρ,
      eng.phase = .input → awake eng → awake (eng.handleClientRequest e msg).1)
    (hcontinue : ∀ e executed finished, a = .step e executed finished → s.Continues e executed →
      s.Started k → awake (s.engines e) → s.Summoned k e)
    (hcaller : ∀ front e s₁, a = .coordinate front (some e) → s.AfterFront front s₁ →
      s₁.StartsFor e k → awake (s₁.engines e))
    (hs : s.step a = some s') : CallInv awake k s' := by
  cases a with
  | addRequest c request e =>
    obtain rfl := Option.some.inj hs
    exact h.addRequest
  | abortRequests c ids e =>
    obtain rfl := Option.some.inj hs
    exact h.sendInput (h.waves.sendInput nofun) nofun nofun
  | forwardFirstReq c => exact h.forwardFirstReq hs
  | readStatus c count => exact h.readStatus hs
  | coordinate front back =>
    refine h.coordinate (fun e s₁ hback => ?_) hs
    exact hcaller front e s₁ (by rw [hback])
  | receive e source => exact h.receive hawake hs
  | handleRequest e => exact h.handleRequest hawake (hkept e) hs
  | enterStep e => exact h.enterStep hawake hs
  | step e executed finished =>
    exact h.engineStep hawake (hcontinue e executed finished rfl) hs
  | allReduce => exact absurd rfl ha
  | afterAllReduce e result => exact h.afterAllReduce hawake hs

/-- When all messages are read, nobody asks and nobody is being woken. -/
lemma CallInv.awake_of_active (h : CallInv awake k s) (hquiet : s.Quiet) {e : Fin (n + 1)}
    (he : (s.engines e).Active) (b : Fin (n + 1)) : awake (s.engines b) := by
  have hstarted : s.Started k := by
    rcases h.active e he with (hs | hs) | ⟨d, hd⟩
    · exact hs
    · obtain ⟨-, c, hc⟩ := hs
      simp [hquiet.socket, hquiet.firstReqs] at hc
    · simp [(hquiet.settled d).1] at hd
  rcases h.summoned hstarted b with hb | ⟨x, -, hb⟩
  · exact hb
  · simp [InFlight, hquiet.inputQueue, hquiet.inputs, hquiet.startWaves] at hb

end

end System

end DataParallel
