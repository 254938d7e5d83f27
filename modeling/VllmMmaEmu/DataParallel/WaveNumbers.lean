import Mathlib.Data.List.Count
import VllmMmaEmu.DataParallel.Coordination

/-!
# The wave numbers agree

An engine leaves a wave by the all-reduce that ends it, and no message can carry it further: each
wave that travels was the wave of some engine before. The coordinator follows with `wave_complete`.
-/

namespace DataParallel

open Function

variable {n m : Nat} {ρ : Type}

/-- The wave a message brings to an engine. -/
def EngineCoreRequest.wave? {N : Nat} : EngineCoreRequest N ρ → Option Nat
  | .add _ requestWave => some requestWave
  | .abort _ => none
  | .startDpWave newWave _ => some newWave

/-- The wave that the sender of a message has reached. -/
def EngineCoreOutputs.reaches : EngineCoreOutputs → Nat
  | .waveComplete wave => wave + 1
  | .startWave wave => wave

namespace DPEngineCoreProc

variable {N : Nat}

/-- The wave of the engine once it has done what follows the all-reduce. -/
def nextWave (eng : DPEngineCoreProc N ρ) : Nat :=
  if eng.phase = .reduced false then eng.currentWave + 1 else eng.currentWave

lemma currentWave_le_nextWave (eng : DPEngineCoreProc N ρ) : eng.currentWave ≤ eng.nextWave := by
  rw [nextWave]
  split_ifs <;> omega

lemma nextWave_eq {eng : DPEngineCoreProc N ρ} (h : eng.phase ≠ .reduced false) :
    eng.nextWave = eng.currentWave :=
  if_neg h

end DPEngineCoreProc

namespace System

variable {s s' : System n m ρ} {k : Nat}

/-- The message is on its way to the engine or in its input queue. -/
def InFlight (s : System n m ρ) (e : Fin (n + 1)) (msg : EngineCoreRequest (n + 1) ρ) : Prop :=
  msg ∈ (s.engines e).inputQueue ∨ (∃ c, msg ∈ s.inputs c e) ∨ msg ∈ s.startWaves e

/-- Some engine has reached the wave. -/
def Known (s : System n m ρ) (w : Nat) : Prop :=
  ∃ e, w ≤ (s.engines e).currentWave

lemma Known.mono {w w' : Nat} (h : s.Known w) (hw : w' ≤ w)
    (hle : ∀ e, (s.engines e).currentWave ≤ (s'.engines e).currentWave) : s'.Known w' := by
  obtain ⟨e, he⟩ := h
  exact ⟨e, (hw.trans he).trans (hle e)⟩

/-- The all-reduces have ended `k` waves. -/
structure WaveInv (k : Nat) (s : System n m ρ) : Prop where
  engines : ∀ e, (s.engines e).nextWave = k
  coordinator : s.Known s.coordinator.currentWave
  clients : ∀ c, (s.clients c).currentWave ≤ s.coordinator.currentWave
  statuses : ∀ c, ∀ status ∈ s.statuses c, status.1 ≤ s.coordinator.currentWave
  inFlight : ∀ e msg, s.InFlight e msg → ∀ w, msg.wave? = some w → s.Known w
  outputs : ∀ e, ∀ msg ∈ s.outputs e, s.Known msg.reaches
  completed : s.coordinator.currentWave < (s.engines 0).currentWave →
    .waveComplete ((s.engines 0).currentWave - 1) ∈ s.outputs 0

lemma WaveInv.known_le (h : WaveInv k s) {w : Nat} (hw : s.Known w) : w ≤ k := by
  obtain ⟨e, he⟩ := hw
  exact he.trans ((s.engines e).currentWave_le_nextWave.trans (h.engines e).le)

lemma waveInv_initial : WaveInv 0 ({} : System n m ρ) where
  engines _ := rfl
  coordinator := ⟨0, le_rfl⟩
  clients _ := le_rfl
  statuses _ _ h := by simp at h
  inFlight _ _ h := by simp [InFlight] at h
  outputs _ _ h := by simp at h
  completed h := by simp at h

section Messages

variable {e b : Fin (n + 1)} {c : Fin m} {msg x : EngineCoreRequest (n + 1) ρ}

lemma inFlight_sendInput : (s.sendInput c e msg).InFlight b x ↔
    s.InFlight b x ∨ b = e ∧ x = msg := by
  simp only [InFlight, sendInput]
  constructor
  · rintro (h | ⟨c', h⟩ | h)
    · exact Or.inl (Or.inl h)
    · by_cases hc : c' = c
      · subst hc
        by_cases hb : b = e
        · subst hb
          simp only [update_self, List.mem_append, List.mem_singleton] at h
          exact h.imp (fun h => Or.inr (Or.inl ⟨c', h⟩)) fun h => ⟨rfl, h⟩
        · simp only [update_self, update_of_ne hb] at h
          exact Or.inl (Or.inr (Or.inl ⟨c', h⟩))
      · rw [update_of_ne hc] at h
        exact Or.inl (Or.inr (Or.inl ⟨c', h⟩))
    · exact Or.inl (Or.inr (Or.inr h))
  · rintro ((h | ⟨c', h⟩ | h) | ⟨rfl, rfl⟩)
    · exact Or.inl h
    · refine Or.inr (Or.inl ⟨c', ?_⟩)
      by_cases hc : c' = c
      · subst hc
        by_cases hb : b = e
        · subst hb
          simp [h]
        · simpa [update_of_ne hb] using h
      · simpa [update_of_ne hc] using h
    · exact Or.inr (Or.inr h)
    · exact Or.inr (Or.inl ⟨c, by simp⟩)

lemma inFlight_sendStartWave {w : Nat} {excluded : Excluded (n + 1)} :
    (s.sendStartWave (some (w, excluded))).InFlight b x ↔
      s.InFlight b x ∨ x = .startDpWave w excluded := by
  simp only [InFlight, sendStartWave, List.mem_append, List.mem_singleton]
  tauto

/-- The input thread moves a message, it neither adds nor drops one. -/
lemma inFlight_receive {source : Option (Fin m)} (h : s.receive e source = some s') :
    s'.InFlight b x ↔ s.InFlight b x := by
  cases source with
  | some c =>
    cases hmsg : s.inputs c e with
    | nil => simp [receive, hmsg] at h
    | cons msg rest =>
      simp only [receive, hmsg, Option.some.injEq] at h
      subst h
      by_cases hb : b = e
      · subst hb
        simp only [InFlight, setEngine, update_self, List.mem_append, List.mem_singleton]
        constructor
        · rintro ((h | rfl) | ⟨c', h⟩ | h)
          · exact Or.inl h
          · exact Or.inr (Or.inl ⟨c, by simp [hmsg]⟩)
          · refine Or.inr (Or.inl ⟨c', ?_⟩)
            by_cases hc : c' = c
            · subst hc
              simp only [update_self] at h
              simp [hmsg, h]
            · rwa [update_of_ne hc] at h
          · exact Or.inr (Or.inr h)
        · rintro (h | ⟨c', h⟩ | h)
          · exact Or.inl (Or.inl h)
          · by_cases hc : c' = c
            · subst hc
              rw [hmsg, List.mem_cons] at h
              rcases h with rfl | h
              · exact Or.inl (Or.inr rfl)
              · exact Or.inr (Or.inl ⟨c', by simpa using h⟩)
            · exact Or.inr (Or.inl ⟨c', by rwa [update_of_ne hc]⟩)
          · exact Or.inr (Or.inr h)
      · simp only [InFlight, setEngine, update_of_ne hb]
        refine or_congr_right (or_congr_left (exists_congr fun c' => ?_))
        by_cases hc : c' = c
        · subst hc
          simp [update_of_ne hb]
        · simp [update_of_ne hc]
  | none =>
    cases hmsg : s.startWaves e with
    | nil => simp [receive, hmsg] at h
    | cons msg rest =>
      simp only [receive, hmsg, Option.some.injEq] at h
      subst h
      by_cases hb : b = e
      · subst hb
        simp only [InFlight, setEngine, update_self, hmsg, List.mem_append, List.mem_cons]
        tauto
      · simp [InFlight, setEngine, update_of_ne hb]

/-- An engine that only takes from its input queue adds no message. -/
lemma InFlight.of_setEngine (eng : DPEngineCoreProc (n + 1) ρ)
    (hqueue : ∀ msg ∈ eng.inputQueue, msg ∈ (s.engines e).inputQueue)
    (h : (s.setEngine e eng).InFlight b x) : s.InFlight b x := by
  refine h.imp_left fun h => ?_
  by_cases hb : b = e
  · subst hb
    rw [setEngine_engines_self] at h
    exact hqueue x h
  · rwa [setEngine_engines_of_ne hb] at h

end Messages

section Operations

variable {e : Fin (n + 1)} {c : Fin m}

lemma WaveInv.sendInput (h : WaveInv k s) {msg : EngineCoreRequest (n + 1) ρ}
    (hmsg : ∀ w, msg.wave? = some w → s.Known w) : WaveInv k (s.sendInput c e msg) where
  engines := h.engines
  coordinator := h.coordinator
  clients := h.clients
  statuses := h.statuses
  inFlight b x hx w hw := by
    rcases inFlight_sendInput.mp hx with hx | ⟨-, rfl⟩
    · exact h.inFlight b x hx w hw
    · exact hmsg w hw
  outputs := h.outputs
  completed := h.completed

lemma WaveInv.setClient (h : WaveInv k s) (client : DPAsyncMPClient (n + 1))
    (hclient : client.currentWave ≤ s.coordinator.currentWave) :
    WaveInv k (s.setClient c client) where
  engines := h.engines
  coordinator := h.coordinator
  clients d := by
    by_cases hd : d = c
    · subst hd
      simpa [System.setClient] using hclient
    · simpa [System.setClient, update_of_ne hd] using h.clients d
  statuses := h.statuses
  inFlight := h.inFlight
  outputs := h.outputs
  completed := h.completed

lemma WaveInv.addRequest (h : WaveInv k s) (c : Fin m) (request : ρ)
    (chosenEngine : Fin (n + 1)) : WaveInv k (s.addRequest c request chosenEngine) := by
  have hsend : WaveInv k (s.sendInput c chosenEngine (.add request (s.clients c).currentWave)) :=
    h.sendInput fun w hw => h.coordinator.mono (Option.some.inj hw ▸ h.clients c) fun _ => le_rfl
  simp only [System.addRequest]
  split_ifs
  · exact hsend.setClient _ (h.clients c)
  · exact hsend

lemma WaveInv.forwardFirstReq (h : WaveInv k s) (hs : s.forwardFirstReq c = some s') :
    WaveInv k s' := by
  rw [System.forwardFirstReq] at hs
  split at hs
  · cases hs
  · obtain rfl := Option.some.inj hs
    obtain ⟨h₁, h₂, h₃, h₄, h₅, h₆, h₇⟩ := h.setClient (c := c)
      { s.clients c with enginesRunning := true, firstReqSocket := _ } (h.clients c)
    exact ⟨h₁, h₂, h₃, h₄, h₅, h₆, h₇⟩

lemma readStatus_spec {count : Nat} (hs : s.readStatus c count = some s') :
    ∃ status ∈ s.statuses c, s' = { s.setClient c { s.clients c with
        currentWave := status.1, enginesRunning := status.2 } with
      statuses := update s.statuses c ((s.statuses c).drop count) } := by
  rw [readStatus] at hs
  split at hs
  · cases hs
  · next wave running hlast =>
    exact ⟨(wave, running), List.mem_of_mem_take (List.mem_of_getLast? hlast),
      (Option.some.inj hs).symm⟩

lemma mem_update_drop {α β : Type} [DecidableEq α] {f : α → List β} {a b : α} {x : β}
    {count : Nat} (h : x ∈ update f a ((f a).drop count) b) : x ∈ f b := by
  by_cases hb : b = a
  · subst hb
    rw [update_self] at h
    exact List.mem_of_mem_drop h
  · rwa [update_of_ne hb] at h

lemma WaveInv.readStatus (h : WaveInv k s) {count : Nat} (hs : s.readStatus c count = some s') :
    WaveInv k s' := by
  obtain ⟨status, hmem, rfl⟩ := readStatus_spec hs
  have hset := h.setClient (c := c) { s.clients c with
    currentWave := status.1, enginesRunning := status.2 } (h.statuses c status hmem)
  exact {
    engines := hset.engines
    coordinator := hset.coordinator
    clients := hset.clients
    statuses := fun d st hst => hset.statuses d st (mem_update_drop hst)
    inFlight := hset.inFlight
    outputs := hset.outputs
    completed := hset.completed }

lemma WaveInv.publish (h : WaveInv k s) : WaveInv k s.publish where
  engines := h.engines
  coordinator := h.coordinator
  clients := h.clients
  statuses d status hstatus := by
    rcases List.mem_append.mp hstatus with hmem | hmem
    · exact h.statuses d status hmem
    · rw [List.mem_singleton.mp hmem]
      exact le_rfl
  inFlight := h.inFlight
  outputs := h.outputs
  completed := h.completed

lemma WaveInv.sendStartWave (h : WaveInv k s) {start : Option (Nat × Excluded (n + 1))}
    (hstart : ∀ p ∈ start, s.Known p.1) : WaveInv k (s.sendStartWave start) := by
  cases start with
  | none => exact h
  | some p => exact {
      engines := h.engines
      coordinator := h.coordinator
      clients := h.clients
      statuses := h.statuses
      inFlight := by
        intro b x hx w hw
        rcases inFlight_sendStartWave.mp hx with hx | rfl
        · exact h.inFlight b x hx w hw
        · obtain rfl := Option.some.inj hw
          exact hstart p rfl
      outputs := h.outputs
      completed := h.completed }

lemma WaveInv.setCoordinator (h : WaveInv k s) {coord : DPCoordinatorProc}
    {firstReqs : Fin m → List (Excluded (n + 1) × Nat)}
    {outputs : Fin (n + 1) → List EngineCoreOutputs}
    (hle : s.coordinator.currentWave ≤ coord.currentWave) (hknown : s.Known coord.currentWave)
    (houtputs : ∀ e, ∀ msg ∈ outputs e, msg ∈ s.outputs e)
    (hcompleted : coord.currentWave < (s.engines 0).currentWave →
      .waveComplete ((s.engines 0).currentWave - 1) ∈ outputs 0) :
    WaveInv k { s with coordinator := coord, firstReqs, outputs } where
  engines := h.engines
  coordinator := hknown
  clients c := (h.clients c).trans hle
  statuses c status hstatus := (h.statuses c status hstatus).trans hle
  inFlight := h.inFlight
  outputs e msg hmsg := h.outputs e msg (houtputs e msg hmsg)
  completed := hcompleted

lemma receiveFront_spec {changed : Bool} (hs : s.receiveFront c = some (s', changed)) :
    ∃ excluded wave rest, s.firstReqs c = (excluded, wave) :: rest ∧
      s' = ({ s with
        coordinator := (s.coordinator.handleFront excluded wave).1
        firstReqs := update s.firstReqs c rest }).sendStartWave
          (s.coordinator.handleFront excluded wave).2 ∧
      changed = (s.coordinator.handleFront excluded wave).2.isSome := by
  rw [receiveFront] at hs
  split at hs
  · cases hs
  · next excluded wave rest hmsg =>
    obtain ⟨rfl, rfl⟩ := Prod.mk.inj (Option.some.inj hs)
    exact ⟨excluded, wave, rest, hmsg, rfl, rfl⟩

lemma receiveBack_spec {changed : Bool} (hs : s.receiveBack e = some (s', changed)) :
    ∃ msg rest, s.outputs e = msg :: rest ∧
      s' = ({ s with
        coordinator := (s.coordinator.handleBack e msg).1
        outputs := update s.outputs e rest }).sendStartWave
          (s.coordinator.handleBack e msg).2.1 ∧
      changed = (s.coordinator.handleBack e msg).2.2 := by
  rw [receiveBack] at hs
  split at hs
  · cases hs
  · next msg rest hmsg =>
    obtain ⟨rfl, rfl⟩ := Prod.mk.inj (Option.some.inj hs)
    exact ⟨msg, rest, hmsg, rfl, rfl⟩

lemma mem_of_mem_update_tail {α β : Type} [DecidableEq α] {f : α → List β} {a b : α} {x y : β}
    {rest : List β} (hf : f a = y :: rest) (h : x ∈ update f a rest b) : x ∈ f b := by
  by_cases hb : b = a
  · subst hb
    rw [update_self] at h
    rw [hf]
    exact List.mem_cons_of_mem y h
  · rwa [update_of_ne hb] at h

lemma mem_update_tail_of_ne {α β : Type} [DecidableEq α] {f : α → List β} {a b : α} {x y : β}
    {rest : List β} (hf : f a = y :: rest) (h : x ∈ f b) (hne : x ≠ y) :
    x ∈ update f a rest b := by
  by_cases hb : b = a
  · subst hb
    rw [hf] at h
    rw [update_self]
    exact (List.mem_cons.mp h).resolve_left hne
  · rwa [update_of_ne hb]

@[simp] lemma sendStartWave_coordinator (start : Option (Nat × Excluded (n + 1))) :
    (s.sendStartWave start).coordinator = s.coordinator := by
  cases start <;> rfl

@[simp] lemma sendStartWave_engines (start : Option (Nat × Excluded (n + 1))) :
    (s.sendStartWave start).engines = s.engines := by
  cases start <;> rfl

@[simp] lemma sendStartWave_outputs (start : Option (Nat × Excluded (n + 1))) :
    (s.sendStartWave start).outputs = s.outputs := by
  cases start <;> rfl

lemma handleFront_currentWave (coord : DPCoordinatorProc) (excluded : Excluded (n + 1))
    (wave : Nat) : (coord.handleFront excluded wave).1.currentWave = coord.currentWave := by
  rw [DPCoordinatorProc.handleFront]
  split_ifs <;> rfl

lemma handleFront_start {coord : DPCoordinatorProc} {excluded : Excluded (n + 1)} {wave : Nat}
    {p : Nat × Excluded (n + 1)} (h : p ∈ (coord.handleFront excluded wave).2) :
    coord.enginesRunning = false ∧ p.1 = coord.currentWave ∧
      (p.2 = .none ∨ p.2 = excluded) := by
  rw [DPCoordinatorProc.handleFront] at h
  split_ifs at h with hrunning hwave
  all_goals simp only [Option.mem_def, Option.some.injEq, reduceCtorEq] at h
  all_goals subst h
  · exact ⟨by simpa using hrunning, rfl, Or.inl rfl⟩
  · exact ⟨by simpa using hrunning, rfl, Or.inr rfl⟩

/-- What a pass of the coordinator keeps. -/
structure Follows (k : Nat) (s s' : System n m ρ) : Prop where
  inv : WaveInv k s'
  le : s.coordinator.currentWave ≤ s'.coordinator.currentWave
  engines : s'.engines = s.engines

lemma WaveInv.receiveFront (h : WaveInv k s) {changed : Bool}
    (hs : s.receiveFront c = some (s', changed)) : Follows k s s' := by
  obtain ⟨excluded, wave, rest, -, rfl, -⟩ := receiveFront_spec hs
  have hwave := handleFront_currentWave s.coordinator excluded wave
  refine ⟨WaveInv.sendStartWave (h.setCoordinator hwave.ge (hwave ▸ h.coordinator)
    (fun _ _ hmsg => hmsg) (hwave ▸ h.completed)) ?_, by simp [hwave], by simp⟩
  intro p hp
  exact (handleFront_start hp).2.1 ▸ h.coordinator

lemma WaveInv.receiveBack (h : WaveInv k s) {changed : Bool}
    (hs : s.receiveBack e = some (s', changed)) : Follows k s s' := by
  obtain ⟨msg, rest, hmsg, rfl, -⟩ := receiveBack_spec hs
  have hknown : s.Known msg.reaches := h.outputs e msg (by simp [hmsg])
  have hrest : ∀ b, ∀ x ∈ update s.outputs e rest b, x ∈ s.outputs b :=
    fun b x => mem_of_mem_update_tail hmsg
  cases msg with
  | waveComplete wave =>
    by_cases hle : s.coordinator.currentWave ≤ wave
    · simp only [DPCoordinatorProc.handleBack, if_pos hle, System.sendStartWave]
      refine ⟨h.setCoordinator (hle.trans wave.le_succ) hknown hrest ?_,
        hle.trans wave.le_succ, rfl⟩
      intro hlt
      -- the report of the last wave is not the one taken here
      refine mem_update_tail_of_ne hmsg (h.completed (by simp only at hlt; omega)) ?_
      simp only at hlt
      intro heq
      injection heq
      omega
    · simp only [DPCoordinatorProc.handleBack, if_neg hle, System.sendStartWave]
      refine ⟨h.setCoordinator le_rfl h.coordinator hrest ?_, le_rfl, rfl⟩
      intro hlt
      refine mem_update_tail_of_ne hmsg (h.completed hlt) ?_
      intro heq
      injection heq
      omega
  | startWave wave =>
    have hcompleted : s.coordinator.currentWave < (s.engines 0).currentWave →
        .waveComplete ((s.engines 0).currentWave - 1) ∈ update s.outputs e rest 0 :=
      fun hlt => mem_update_tail_of_ne hmsg (h.completed hlt) nofun
    by_cases hgt : wave > s.coordinator.currentWave ∨
        wave = s.coordinator.currentWave ∧ !s.coordinator.enginesRunning
    · simp only [DPCoordinatorProc.handleBack, if_pos hgt]
      have hle : s.coordinator.currentWave ≤ wave := by
        rcases hgt with hgt | ⟨rfl, -⟩
        · exact hgt.le
        · exact le_rfl
      refine ⟨WaveInv.sendStartWave (h.setCoordinator hle hknown hrest fun hlt =>
        hcompleted (hle.trans_lt hlt)) ?_, hle, rfl⟩
      intro p hp
      obtain rfl := Option.some.inj hp
      exact hknown
    · simp only [DPCoordinatorProc.handleBack, if_neg hgt, System.sendStartWave]
      exact ⟨h.setCoordinator le_rfl h.coordinator hrest hcompleted, le_rfl, rfl⟩

lemma coordinate_spec {front : Option (Fin m)} {back : Option (Fin (n + 1))}
    (hs : s.coordinate front back = some s') :
    s' = s.publish ∨ ∃ s₁ s₂ changedFront changedBack,
      front.elim (some (s, false)) s.receiveFront = some (s₁, changedFront) ∧
      back.elim (some (s₁, false)) s₁.receiveBack = some (s₂, changedBack) ∧
      s' = if changedFront || changedBack then s₂.publish else s₂ := by
  rw [System.coordinate] at hs
  split_ifs at hs
  · exact Or.inl (Option.some.inj hs).symm
  · obtain ⟨⟨s₁, changedFront⟩, hfront, hs⟩ := Option.bind_eq_some_iff.mp hs
    obtain ⟨⟨s₂, changedBack⟩, hback, hs⟩ := Option.bind_eq_some_iff.mp hs
    exact Or.inr ⟨s₁, s₂, changedFront, changedBack, hfront, hback, (Option.some.inj hs).symm⟩

lemma WaveInv.coordinate (h : WaveInv k s) {front : Option (Fin m)}
    {back : Option (Fin (n + 1))} (hs : s.coordinate front back = some s') : Follows k s s' := by
  rcases coordinate_spec hs with rfl | ⟨s₁, s₂, _, _, hfront, hback, rfl⟩
  · exact ⟨h.publish, le_rfl, rfl⟩
  · have h₁ : Follows k s s₁ := by
      cases front with
      | none =>
        obtain ⟨rfl, -⟩ := Prod.mk.inj (Option.some.inj hfront)
        exact ⟨h, le_rfl, rfl⟩
      | some c => exact h.receiveFront hfront
    have h₂ : Follows k s₁ s₂ := by
      cases back with
      | none =>
        obtain ⟨rfl, -⟩ := Prod.mk.inj (Option.some.inj hback)
        exact ⟨h₁.inv, le_rfl, rfl⟩
      | some e => exact h₁.inv.receiveBack hback
    have hle := h₁.le.trans h₂.le
    have hengines := h₂.engines.trans h₁.engines
    split_ifs
    · exact ⟨h₂.inv.publish, hle, hengines⟩
    · exact ⟨h₂.inv, hle, hengines⟩

lemma WaveInv.setEngine (h : WaveInv k s) {eng : DPEngineCoreProc (n + 1) ρ}
    {out : List EngineCoreOutputs} (hphase : eng.phase ≠ .reduced false)
    (hold : (s.engines e).phase ≠ .reduced false)
    (hwave : eng.currentWave = (s.engines e).currentWave)
    (hqueue : ∀ msg ∈ eng.inputQueue, msg ∈ (s.engines e).inputQueue)
    (hout : ∀ msg ∈ out, msg = .startWave (s.engines e).currentWave) :
    WaveInv k ((s.setEngine e eng).putOutputs e out) := by
  have hsame : ∀ b, ((s.setEngine e eng).engines b).currentWave = (s.engines b).currentWave := by
    intro b
    by_cases hb : b = e
    · subst hb
      rw [setEngine_engines_self, hwave]
    · rw [setEngine_engines_of_ne hb]
  have hmono : ∀ w, s.Known w → ((s.setEngine e eng).putOutputs e out).Known w :=
    fun w hw => hw.mono le_rfl fun b => (hsame b).ge
  exact {
    engines := by
      intro b
      change ((s.setEngine e eng).engines b).nextWave = k
      by_cases hb : b = e
      · subst hb
        rw [setEngine_engines_self, DPEngineCoreProc.nextWave_eq hphase, hwave,
          ← DPEngineCoreProc.nextWave_eq hold, h.engines]
      · rw [setEngine_engines_of_ne hb, h.engines]
    coordinator := hmono _ h.coordinator
    clients := h.clients
    statuses := h.statuses
    inFlight := fun b msg hmsg w hw =>
      hmono w (h.inFlight b msg (InFlight.of_setEngine eng hqueue hmsg) w hw)
    outputs := by
      intro b msg hmsg
      refine hmono _ ?_
      by_cases hb : b = e
      · subst hb
        rw [putOutputs_self] at hmsg
        rcases List.mem_append.mp hmsg with hmsg | hmsg
        · exact h.outputs b msg hmsg
        · rw [hout msg hmsg]
          exact ⟨b, le_rfl⟩
      · rw [putOutputs_of_ne hb] at hmsg
        exact h.outputs b msg hmsg
    completed := by
      intro hlt
      change s.coordinator.currentWave < ((s.setEngine e eng).engines 0).currentWave at hlt
      change EngineCoreOutputs.waveComplete (((s.setEngine e eng).engines 0).currentWave - 1) ∈ _
      rw [hsame] at hlt ⊢
      have hmem := h.completed hlt
      by_cases hb : 0 = e
      · subst hb
        rw [putOutputs_self]
        exact List.mem_append_left _ hmem
      · rwa [putOutputs_of_ne hb] }

/-- The input thread changes nothing but queues. -/
structure OnlyQueues (s s' : System n m ρ) : Prop where
  engines : ∀ b, ∃ queue, s'.engines b = { s.engines b with inputQueue := queue }
  clients : s'.clients = s.clients
  coordinator : s'.coordinator = s.coordinator
  outputs : s'.outputs = s.outputs
  firstReqs : s'.firstReqs = s.firstReqs
  statuses : s'.statuses = s.statuses

lemma onlyQueues_setEngine (queue : List (EngineCoreRequest (n + 1) ρ))
    (inputs : Fin m → Fin (n + 1) → List (EngineCoreRequest (n + 1) ρ))
    (startWaves : Fin (n + 1) → List (EngineCoreRequest (n + 1) ρ)) :
    OnlyQueues s { s.setEngine e { s.engines e with inputQueue := queue } with
      inputs, startWaves } := by
  refine ⟨fun b => ?_, rfl, rfl, rfl, rfl, rfl⟩
  by_cases hb : b = e
  · subst hb
    exact ⟨queue, setEngine_engines_self ..⟩
  · exact ⟨(s.engines b).inputQueue, setEngine_engines_of_ne hb⟩

lemma onlyQueues_receive {source : Option (Fin m)} (hs : s.receive e source = some s') :
    OnlyQueues s s' := by
  simp only [System.receive] at hs
  split at hs
  · split at hs
    · cases hs
    · obtain rfl := Option.some.inj hs
      exact onlyQueues_setEngine ..
  · split at hs
    · cases hs
    · obtain rfl := Option.some.inj hs
      exact onlyQueues_setEngine ..

lemma OnlyQueues.currentWave (h : OnlyQueues s s') (b : Fin (n + 1)) :
    (s'.engines b).currentWave = (s.engines b).currentWave := by
  obtain ⟨queue, hb⟩ := h.engines b
  rw [hb]

lemma WaveInv.receive (h : WaveInv k s) {source : Option (Fin m)}
    (hs : s.receive e source = some s') : WaveInv k s' := by
  have hq := onlyQueues_receive hs
  have hmono : ∀ w, s.Known w → s'.Known w :=
    fun w hw => hw.mono le_rfl fun b => (hq.currentWave b).ge
  exact {
    engines := by
      intro b
      obtain ⟨queue, hb⟩ := hq.engines b
      rw [hb, ← h.engines b]
      rfl
    coordinator := hq.coordinator ▸ hmono _ h.coordinator
    clients := hq.clients ▸ hq.coordinator ▸ h.clients
    statuses := hq.statuses ▸ hq.coordinator ▸ h.statuses
    inFlight := fun b msg hmsg w hw =>
      hmono w (h.inFlight b msg ((inFlight_receive hs).mp hmsg) w hw)
    outputs := fun b msg hmsg => hmono _ (h.outputs b msg (hq.outputs ▸ hmsg))
    completed := by
      rw [hq.coordinator, hq.outputs, hq.currentWave]
      exact h.completed }

/-- A message that brings no later wave leaves the wave of the engine. -/
lemma handleClientRequest_spec [DecidableEq ρ] (eng : DPEngineCoreProc (n + 1) ρ)
    {msg : EngineCoreRequest (n + 1) ρ} (hmsg : ∀ w, msg.wave? = some w → w ≤ eng.currentWave) :
    (eng.handleClientRequest e msg).1.currentWave = eng.currentWave ∧
    (eng.handleClientRequest e msg).1.phase = eng.phase ∧
    (eng.handleClientRequest e msg).1.inputQueue = eng.inputQueue ∧
    ∀ x ∈ (eng.handleClientRequest e msg).2, x = .startWave eng.currentWave := by
  cases msg with
  | add request wave =>
    have hle : ¬ wave > eng.currentWave := not_lt.mpr (hmsg wave rfl)
    simp only [DPEngineCoreProc.handleClientRequest, DPEngineCoreProc.addRequest, if_neg hle]
    split_ifs <;> simp
  | abort ids => simp [DPEngineCoreProc.handleClientRequest, DPEngineCoreProc.abortRequests]
  | startDpWave wave excluded =>
    have hle : wave ≤ eng.currentWave := hmsg wave rfl
    simp only [DPEngineCoreProc.handleClientRequest, DPEngineCoreProc.startDpWave]
    split_ifs with hnew
    · exact ⟨hle.antisymm hnew.2, rfl, rfl, by simp⟩
    · exact ⟨rfl, rfl, rfl, by simp⟩

/-- The engine that takes a message from its input queue, and what the message can be. -/
lemma handleRequest_spec [DecidableEq ρ] (hs : s.handleRequest e = some s') :
    (s.engines e).phase = .input ∧ ∃ msg rest, (s.engines e).inputQueue = msg :: rest ∧
      s' = (s.setEngine e (({ s.engines e with inputQueue := rest }).handleClientRequest e
        msg).1).putOutputs e (({ s.engines e with inputQueue := rest }).handleClientRequest e
        msg).2 := by
  rw [System.handleRequest] at hs
  split_ifs at hs with hphase
  split at hs
  · cases hs
  · next msg rest hqueue => exact ⟨hphase, msg, rest, hqueue, (Option.some.inj hs).symm⟩

/-- No message brings an engine that reads its input queue a later wave. -/
lemma WaveInv.wave_le (h : WaveInv k s) (hphase : (s.engines e).phase = .input)
    {msg : EngineCoreRequest (n + 1) ρ} (hmsg : s.InFlight e msg) {w : Nat}
    (hw : msg.wave? = some w) : w ≤ (s.engines e).currentWave := by
  have hk := h.engines e
  rw [DPEngineCoreProc.nextWave_eq (by rw [hphase]; nofun)] at hk
  exact hk ▸ h.known_le (h.inFlight e msg hmsg w hw)

lemma WaveInv.handleRequest [DecidableEq ρ] (h : WaveInv k s)
    (hs : s.handleRequest e = some s') :
    WaveInv k s' ∧ ∀ b, (s'.engines b).currentWave = (s.engines b).currentWave := by
  obtain ⟨hphase, msg, rest, hqueue, rfl⟩ := handleRequest_spec hs
  have hin : s.InFlight e msg := Or.inl (by simp [hqueue])
  obtain ⟨hwave, hphase', hqueue', hout⟩ := handleClientRequest_spec (e := e)
    { s.engines e with inputQueue := rest } fun w => h.wave_le hphase hin
  have hinput : (s.engines e).phase ≠ .reduced false := by
    rw [hphase]
    nofun
  refine ⟨h.setEngine (by rwa [hphase']) hinput hwave ?_ hout, fun b => ?_⟩
  · intro x hx
    rw [hqueue'] at hx
    rw [hqueue]
    exact List.mem_cons_of_mem msg hx
  · by_cases hb : b = e
    · subst hb
      simpa [System.putOutputs] using hwave
    · simp [System.putOutputs, setEngine_engines_of_ne hb]

lemma enterStep_spec (hs : s.enterStep e = some s') :
    (s.engines e).phase = .input ∧
      s' = s.setEngine e { s.engines e with phase := .stepping } := by
  rw [System.enterStep] at hs
  split_ifs at hs with hcond
  exact ⟨hcond.1, (Option.some.inj hs).symm⟩

lemma putOutputs_nil : s.putOutputs e [] = s := by
  simp [putOutputs]

lemma WaveInv.enterStep (h : WaveInv k s) (hs : s.enterStep e = some s') :
    WaveInv k s' ∧ ∀ b, (s'.engines b).currentWave = (s.engines b).currentWave := by
  obtain ⟨hphase, rfl⟩ := enterStep_spec hs
  refine ⟨?_, fun b => ?_⟩
  · rw [← putOutputs_nil (s := s.setEngine e _) (e := e)]
    exact h.setEngine nofun (by rw [hphase]; nofun) rfl (fun _ hx => hx) (by simp)
  · by_cases hb : b = e
    · subst hb
      simp
    · rw [setEngine_engines_of_ne hb]

/-- One iteration of the busy loop up to the all-reduce. -/
lemma engineStep_spec [DecidableEq ρ] {executed : Bool} {finished : List ρ}
    (hs : s.engineStep e executed finished = some s') :
    (s.engines e).phase = .stepping ∧
      ((executed = true → (s.engines e).requests ≠ []) ∧
        (executed = false → finished = [])) ∧
      s' = s.setEngine e (DPEngineCoreProc.afterStep { s.engines e with
        requests := (s.engines e).requests.filter (· ∉ finished)
        finishedReqIds := (s.engines e).requests.filter (· ∈ finished) } executed) := by
  rw [System.engineStep] at hs
  split_ifs at hs with hphase
  obtain ⟨eng, heng, hs⟩ := Option.bind_eq_some_iff.mp hs
  rw [DPEngineCoreProc.processEngineStep] at heng
  split_ifs at heng with hcond
  obtain rfl := Option.some.inj heng
  exact ⟨hphase, by simpa using hcond, (Option.some.inj hs).symm⟩

lemma afterStep_spec (eng : DPEngineCoreProc (n + 1) ρ) (executed : Bool) :
    (eng.afterStep executed).phase ≠ .reduced false ∧
    (eng.afterStep executed).currentWave = eng.currentWave ∧
    (eng.afterStep executed).inputQueue = eng.inputQueue := by
  simp only [DPEngineCoreProc.afterStep]
  split_ifs <;> exact ⟨nofun, rfl, rfl⟩

lemma WaveInv.engineStep [DecidableEq ρ] (h : WaveInv k s) {executed : Bool} {finished : List ρ}
    (hs : s.engineStep e executed finished = some s') :
    WaveInv k s' ∧ ∀ b, (s'.engines b).currentWave = (s.engines b).currentWave := by
  obtain ⟨hphase, -, rfl⟩ := engineStep_spec hs
  obtain ⟨hphase', hwave, hqueue⟩ := afterStep_spec { s.engines e with
    requests := (s.engines e).requests.filter (· ∉ finished)
    finishedReqIds := (s.engines e).requests.filter (· ∈ finished) } executed
  refine ⟨?_, fun b => ?_⟩
  · rw [← putOutputs_nil (s := s.setEngine e _) (e := e)]
    exact h.setEngine hphase' (by rw [hphase]; nofun) hwave (fun x hx => hqueue ▸ hx) (by simp)
  · by_cases hb : b = e
    · subst hb
      simpa using hwave
    · rw [setEngine_engines_of_ne hb]

lemma allReduce_spec (hs : s.allReduce = some s') :
    (∀ b, ∃ u, (s.engines b).phase = .reducing u) ∧
      ∃ result, (result = true ↔ ∃ b, (s.engines b).phase = .reducing true) ∧
        s' = { s with engines := fun b => { s.engines b with phase := .reduced result } } := by
  rw [System.allReduce] at hs
  split_ifs at hs with hall
  refine ⟨fun b => ?_, _, decide_eq_true_iff, (Option.some.inj hs).symm⟩
  have hb := hall b
  cases hphase : (s.engines b).phase with
  | reducing u => exact ⟨u, rfl⟩
  | input => simp [hphase, Phase.isReducing] at hb
  | stepping => simp [hphase, Phase.isReducing] at hb
  | reduced u => simp [hphase, Phase.isReducing] at hb

lemma WaveInv.allReduce (h : WaveInv k s) (result : Bool)
    (hall : ∀ b, ∃ u, (s.engines b).phase = .reducing u) :
    WaveInv (if result then k else k + 1)
      { s with engines := fun b => { s.engines b with phase := .reduced result } } where
  engines b := by
    obtain ⟨u, hu⟩ := hall b
    have hk := h.engines b
    rw [DPEngineCoreProc.nextWave_eq (by rw [hu]; nofun)] at hk
    cases result with
    | true => simpa [DPEngineCoreProc.nextWave] using hk
    | false => simpa [DPEngineCoreProc.nextWave] using hk
  coordinator := h.coordinator
  clients := h.clients
  statuses := h.statuses
  inFlight := h.inFlight
  outputs := h.outputs
  completed := h.completed

lemma afterAllReduce_spec {result : Bool} (hs : s.afterAllReduce e result = some s') :
    (s.engines e).phase = .reduced result ∧
      s' = (s.setEngine e ((s.engines e).afterAllReduce e result).1).putOutputs e
        ((s.engines e).afterAllReduce e result).2 := by
  rw [System.afterAllReduce] at hs
  split_ifs at hs with hphase
  exact ⟨hphase, (Option.some.inj hs).symm⟩

lemma afterAllReduce_false (eng : DPEngineCoreProc (n + 1) ρ) (rank : Nat) :
    eng.afterAllReduce rank false =
      ({ eng with
          enginesRunning := false
          phase := .input
          currentWave := eng.currentWave + 1
          stepCounter := 0 },
        if rank = 0 then [.waveComplete eng.currentWave] else []) :=
  rfl

lemma afterAllReduce_true (eng : DPEngineCoreProc (n + 1) ρ) (rank : Nat) :
    eng.afterAllReduce rank true = ({ eng with enginesRunning := true, phase := .input }, []) :=
  rfl

lemma WaveInv.nextWave (h : WaveInv k s) (hphase : (s.engines e).phase = .reduced false)
    (hs : s.afterAllReduce e false = some s') : WaveInv k s' ∧ ∀ b,
      (s'.engines b).currentWave = (s.engines b).currentWave + if b = e then 1 else 0 := by
  obtain ⟨-, rfl⟩ := afterAllReduce_spec hs
  simp only [afterAllReduce_false]
  set eng : DPEngineCoreProc (n + 1) ρ := { s.engines e with
    enginesRunning := false
    phase := .input
    currentWave := (s.engines e).currentWave + 1
    stepCounter := 0 } with heng
  have hwave : ∀ b, ((s.setEngine e eng).engines b).currentWave =
      (s.engines b).currentWave + if b = e then 1 else 0 := by
    intro b
    by_cases hb : b = e
    · subst hb
      simp [heng]
    · simp [setEngine_engines_of_ne hb, hb]
  have hmono : ∀ w out, s.Known w → ((s.setEngine e eng).putOutputs e out).Known w :=
    fun w out hw => hw.mono le_rfl fun b => (hwave b).symm ▸ Nat.le_add_right ..
  refine ⟨?_, hwave⟩
  exact {
    engines := by
      intro b
      change ((s.setEngine e eng).engines b).nextWave = k
      rw [← h.engines b]
      by_cases hb : b = e
      · subst hb
        rw [setEngine_engines_self]
        simp [heng, DPEngineCoreProc.nextWave, hphase]
      · rw [setEngine_engines_of_ne hb]
    coordinator := hmono _ _ h.coordinator
    clients := h.clients
    statuses := h.statuses
    inFlight := fun b msg hmsg w hw => hmono w _ (h.inFlight b msg
      (InFlight.of_setEngine (e := e) eng (fun _ hx => hx) hmsg) w hw)
    outputs := by
      intro b msg hmsg
      by_cases hb : b = e
      · subst hb
        rw [putOutputs_self] at hmsg
        rcases List.mem_append.mp hmsg with hmsg | hmsg
        · exact hmono _ _ (h.outputs b msg hmsg)
        · refine ⟨b, ?_⟩
          change _ ≤ ((s.setEngine b eng).engines b).currentWave
          rw [hwave, if_pos rfl]
          split_ifs at hmsg
          · rw [List.mem_singleton.mp hmsg]
            exact le_rfl
          · simp at hmsg
      · rw [putOutputs_of_ne hb] at hmsg
        exact hmono _ _ (h.outputs b msg hmsg)
    completed := by
      intro hlt
      change _ < ((s.setEngine e eng).engines 0).currentWave at hlt
      change EngineCoreOutputs.waveComplete (((s.setEngine e eng).engines 0).currentWave - 1) ∈ _
      by_cases hb : 0 = e
      · -- the first engine reports the wave that it leaves
        subst hb
        rw [putOutputs_self, setEngine_engines_self]
        exact List.mem_append_right _ (by simp [heng])
      · rw [setEngine_engines_of_ne hb] at hlt ⊢
        rw [putOutputs_of_ne hb]
        exact h.completed hlt }

lemma WaveInv.resume (h : WaveInv k s) (hs : s.afterAllReduce e true = some s') :
    WaveInv k s' ∧ ∀ b, (s'.engines b).currentWave = (s.engines b).currentWave := by
  obtain ⟨hphase, rfl⟩ := afterAllReduce_spec hs
  simp only [afterAllReduce_true]
  refine ⟨h.setEngine nofun (by rw [hphase]; nofun) rfl (fun _ hx => hx) (by simp), fun b => ?_⟩
  by_cases hb : b = e
  · subst hb
    simp [System.putOutputs]
  · simp [System.putOutputs, setEngine_engines_of_ne hb]

end Operations

section Runs

/-- No report of an engine is on its way, and no engine stands after an all-reduce. -/
def Settled (s : System n m ρ) : Prop :=
  ∀ e, s.outputs e = [] ∧ ∀ result, (s.engines e).phase ≠ .reduced result

lemma WaveInv.eq_of_settled (h : WaveInv k s) (hs : s.Settled) (e : Fin (n + 1)) :
    s.coordinator.currentWave = (s.engines e).currentWave := by
  have hwave : ∀ b, (s.engines b).currentWave = k := fun b =>
    (DPEngineCoreProc.nextWave_eq ((hs b).2 false)).symm.trans (h.engines b)
  refine le_antisymm ?_ (not_lt.mp fun hlt => ?_)
  · rw [hwave]
    exact h.known_le h.coordinator
  · rw [hwave e, ← hwave 0] at hlt
    have hmem := h.completed hlt
    rw [(hs 0).1] at hmem
    simp at hmem

lemma addRequest_parts (s : System n m ρ) (c : Fin m) (request : ρ) (e : Fin (n + 1)) :
    (s.addRequest c request e).engines = s.engines ∧
      (s.addRequest c request e).coordinator = s.coordinator := by
  simp only [System.addRequest]
  split_ifs <;> exact ⟨rfl, rfl⟩

variable [DecidableEq ρ]

/-- What one step does to the waves. -/
structure WaveStep (a : Action n m ρ) (s s' : System n m ρ) : Prop where
  inv : ∃ k', WaveInv k' s'
  coordinator : s.coordinator.currentWave ≤ s'.coordinator.currentWave
  engines : ∀ b, (s'.engines b).currentWave =
    (s.engines b).currentWave + if a = .afterAllReduce b false then 1 else 0

/-- Only the code after an all-reduce that found nothing moves an engine to another wave. -/
lemma WaveInv.step (h : WaveInv k s) {a : Action n m ρ} (hs : s.step a = some s') :
    WaveStep a s s' := by
  cases a with
  | addRequest c request e =>
    obtain rfl := Option.some.inj hs
    obtain ⟨hengines, hcoord⟩ := addRequest_parts s c request e
    exact ⟨⟨k, h.addRequest c request e⟩, hcoord ▸ le_rfl, by simp [hengines]⟩
  | abortRequests c ids e =>
    obtain rfl := Option.some.inj hs
    exact ⟨⟨k, h.sendInput nofun⟩, le_rfl, by simp [System.sendInput]⟩
  | forwardFirstReq c =>
    have hsame : s'.engines = s.engines ∧ s'.coordinator = s.coordinator := by
      simp only [System.step, System.forwardFirstReq] at hs
      split at hs
      · cases hs
      · obtain rfl := Option.some.inj hs
        exact ⟨rfl, rfl⟩
    exact ⟨⟨k, h.forwardFirstReq hs⟩, hsame.2 ▸ le_rfl, by simp [hsame.1]⟩
  | readStatus c count =>
    obtain ⟨status, -, rfl⟩ := readStatus_spec hs
    exact ⟨⟨k, h.readStatus hs⟩, le_rfl, by simp [System.setClient]⟩
  | coordinate front back =>
    have hfollows := h.coordinate hs
    exact ⟨⟨k, hfollows.inv⟩, hfollows.le, by simp [hfollows.engines]⟩
  | receive e source =>
    have hq := onlyQueues_receive hs
    exact ⟨⟨k, h.receive hs⟩, hq.coordinator ▸ le_rfl, by simp [hq.currentWave]⟩
  | handleRequest e =>
    obtain ⟨hinv, hwave⟩ := h.handleRequest hs
    obtain ⟨_, _, _, _, rfl⟩ := handleRequest_spec hs
    exact ⟨⟨k, hinv⟩, le_rfl, by simpa using hwave⟩
  | enterStep e =>
    obtain ⟨hinv, hwave⟩ := h.enterStep hs
    obtain ⟨-, rfl⟩ := enterStep_spec hs
    exact ⟨⟨k, hinv⟩, le_rfl, by simpa using hwave⟩
  | step e executed finished =>
    obtain ⟨hinv, hwave⟩ := h.engineStep hs
    obtain ⟨-, -, rfl⟩ := engineStep_spec hs
    exact ⟨⟨k, hinv⟩, le_rfl, by simpa using hwave⟩
  | allReduce =>
    obtain ⟨hall, result, -, rfl⟩ := allReduce_spec hs
    exact ⟨⟨_, h.allReduce result hall⟩, le_rfl, by simp⟩
  | afterAllReduce e result =>
    obtain ⟨hphase, hs'⟩ := afterAllReduce_spec hs
    have hcoord : s.coordinator.currentWave ≤ s'.coordinator.currentWave := hs' ▸ le_rfl
    cases result with
    | true =>
      obtain ⟨hinv, hwave⟩ := h.resume hs
      exact ⟨⟨k, hinv⟩, hcoord, by simpa using hwave⟩
    | false =>
      obtain ⟨hinv, hwave⟩ := h.nextWave hphase hs
      exact ⟨⟨k, hinv⟩, hcoord, by simpa [eq_comm] using hwave⟩

lemma WaveInv.run (h : WaveInv k s) {actions : List (Action n m ρ)}
    (hrun : Runs.runEvents System.step s actions = some s') :
    (∃ k', WaveInv k' s') ∧ ∀ b, (s'.engines b).currentWave =
      (s.engines b).currentWave + actions.count (.afterAllReduce b false) := by
  induction actions generalizing s k with
  | nil =>
    obtain rfl := Option.some.inj hrun
    exact ⟨⟨k, h⟩, fun _ => rfl⟩
  | cons a actions ih =>
    obtain ⟨s₁, hs₁, hrest⟩ := Option.bind_eq_some_iff.mp hrun
    have hstep := h.step hs₁
    obtain ⟨k₁, h₁⟩ := hstep.inv
    obtain ⟨hinv, hcount⟩ := ih h₁ hrest
    refine ⟨hinv, fun b => ?_⟩
    rw [hcount, hstep.engines, List.count_cons, Nat.add_assoc, Nat.add_comm (ite _ _ _)]
    simp

/-- The wave of an engine is the number of all-reduces that found nothing, the coordinator
follows, and once its messages are read it has caught up. -/
theorem currentWave_consistent {actions : List (Action n m ρ)}
    (hrun : Runs.runEvents System.step {} actions = some s) :
    (∀ e, (s.engines e).currentWave = actions.count (.afterAllReduce e false)) ∧
    (∀ a s', s.step a = some s' →
      s.coordinator.currentWave ≤ s'.coordinator.currentWave ∧
      ∀ e, a = .handleRequest e → ∀ b,
        (s'.engines b).currentWave = (s.engines b).currentWave) ∧
    (∃ e, s.coordinator.currentWave ≤ (s.engines e).currentWave) ∧
    (s.Settled → ∀ e, s.coordinator.currentWave = (s.engines e).currentWave) := by
  obtain ⟨⟨k, h⟩, hcount⟩ := waveInv_initial.run hrun
  refine ⟨fun e => (hcount e).trans (Nat.zero_add _), ?_, h.coordinator, h.eq_of_settled⟩
  intro a s' hs
  have hstep := h.step hs
  refine ⟨hstep.coordinator, ?_⟩
  rintro e rfl b
  simpa using hstep.engines b

end Runs

/-- The first request wakes two engines. -/
def wakeUp : List (Action 1 1 Nat) :=
  [.addRequest 0 7 0, .receive 0 (some 0), .handleRequest 0, .forwardFirstReq 0,
    .coordinate (some 0) none, .receive 0 none, .receive 1 none, .handleRequest 0,
    .handleRequest 1, .readStatus 0 1]

/-- They run until the request has finished, and pause. -/
def oneWave : List (Action 1 1 Nat) :=
  wakeUp ++ (List.replicate 31 [.enterStep 0, .step 0 true []]).flatten ++
    [.enterStep 0, .step 0 true [7]] ++
    (List.replicate 32 [.enterStep 1, .step 1 false []]).flatten ++
    [.allReduce, .afterAllReduce 0 false, .afterAllReduce 1 false]

set_option maxRecDepth 10000 in
theorem currentWave_consistent_one_wave : ∃ s, Runs.runEvents System.step {} oneWave = some s ∧
    ∀ e, (s.engines e).currentWave = 1 := by
  have hsome : (Runs.runEvents System.step {} oneWave).isSome := by decide +kernel
  obtain ⟨s, hs⟩ := Option.isSome_iff_exists.mp hsome
  have hcount : ∀ e : Fin 2, oneWave.count (.afterAllReduce e false) = 1 := by decide +kernel
  exact ⟨s, hs, fun e => ((currentWave_consistent hs).1 e).trans (hcount e)⟩

end System

end DataParallel
