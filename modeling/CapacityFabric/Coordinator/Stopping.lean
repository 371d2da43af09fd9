import CapacityFabric.Coordinator.Threads

/-!
# How the threads end

What holds between the threads at every moment of every interleaving, and from it what
`stop()` waits for, what is left after it, and when it comes too late.
-/

namespace CapacityFabric

theorem getElem?_concat_cases {α : Type} {l : List α} {a x : α} {i : ℕ}
    (h : (l ++ [a])[i]? = some x) : l[i]? = some x ∨ i = l.length ∧ x = a := by
  rcases lt_trichotomy i l.length with hlt | rfl | hgt
  · rw [List.getElem?_append_left hlt] at h
    exact Or.inl h
  · rw [List.getElem?_concat_length] at h
    exact Or.inr ⟨rfl, (Option.some.inj h).symm⟩
  · rw [List.getElem?_eq_none (by simpa using hgt)] at h
    cases h

namespace Threads

variable {σ : EventSort} {s s' : Threads} {c : ConnectionId}

def unfinished (handlers : List Handler) : ℕ := handlers.countP fun h => !h.isFinished

/-- What the owner can rely on where it stands. -/
def OwnerKnows (s : Threads) : Prop :=
  match s.owner with
  | .outside => True
  | .closingListener => s.running = false
  | .joiningAccept => s.running = false ∧ s.listening = false
  | .joiningHandlers n =>
    s.running = false ∧ s.accepting = .finished ∧ ∀ h ∈ s.handlers.take n, h.isFinished = true
  | .stopped | .destroyed => s.running = false ∧ s.accepting = .finished ∧ s.handlers = []
  | .aborted => s.running = false

structure InOrder (s : Threads) : Prop where
  active_eq : s.active = unfinished s.handlers + if s.accepting = .counted then 1 else 0
  active_le : s.active ≤ kMaxConcurrentConnections
  knows : s.OwnerKnows

theorem inOrder_init : InOrder {} where
  active_eq := rfl
  active_le := Nat.zero_le _
  knows := trivial

/-- A change at one handler that has not ended, as the other threads see it. -/
structure ChangesHandler (s : Threads) (c : ConnectionId) (h h' : Handler) (s' : Threads) :
    Prop where
  found : s.handlers[c]? = some h
  lives : h.isFinished = false
  handlers : s'.handlers = s.handlers.set c h'
  active : s'.active = s.active - if h'.isFinished then 1 else 0
  running : s'.running = s.running ∨ s'.running = false
  accepting : s'.accepting = s.accepting
  listening : s'.listening = s.listening
  owner : s'.owner = s.owner

theorem Moves.changesHandler {e : HandlerEvent} (h : Moves σ s (.handler c e) s') :
    (s' = { s with terminated := true } ∧ ∃ saved, e = .work saved) ∨
      ∃ h h', ChangesHandler s c h h' s' := by
  have hlives : ∀ {h : Handler} {stage : HandlerStage}, h.stage = stage →
      Handler.isFinished { stage } = false → h.isFinished = false := by
    rintro ⟨_, _⟩ stage rfl hstage
    exact hstage
  cases h with
  | raises => exact Or.inl ⟨rfl, _, rfl⟩
  | ends hc hstage =>
    exact Or.inr ⟨_, _, hc, hlives hstage rfl, rfl, rfl, Or.inr rfl, rfl, rfl, rfl⟩
  | receives hc hstage | loses hc hstage | isAskedToEnd hc hstage | cannotRead hc hstage
  | registers hc hstage | answers hc hstage | buries hc hstage | goesOn hc hstage
  | givesUp hc hstage | closes hc hstage | returns hc hstage =>
    exact Or.inr ⟨_, _, hc, hlives hstage rfl, rfl, rfl, Or.inl rfl, rfl, rfl, rfl⟩

theorem ChangesHandler.unfinished_eq {h h' : Handler} (hs : ChangesHandler s c h h' s') :
    0 < unfinished s.handlers ∧
      unfinished s'.handlers = unfinished s.handlers - if h'.isFinished then 1 else 0 := by
  obtain ⟨hlt, hget⟩ := List.getElem?_eq_some_iff.mp hs.found
  have hpos : 0 < unfinished s.handlers :=
    List.countP_pos_iff.mpr ⟨h, List.mem_of_getElem? hs.found, by simp [hs.lives]⟩
  refine ⟨hpos, ?_⟩
  unfold unfinished at hpos ⊢
  rw [hs.handlers, List.countP_set hlt, hget, hs.lives]
  cases h'.isFinished <;> simp
  omega

theorem ChangesHandler.ownerKnows {h h' : Handler} (hs : ChangesHandler s c h h' s')
    (hknows : s.OwnerKnows) : s'.OwnerKnows := by
  have hfalse : s.running = false → s'.running = false := fun h0 =>
    hs.running.elim (fun he => he.trans h0) id
  unfold OwnerKnows at hknows ⊢
  rw [hs.owner, hs.accepting, hs.listening, hs.handlers]
  cases howner : s.owner with
  | outside => trivial
  | closingListener | aborted => simp only [howner] at hknows; exact hfalse hknows
  | joiningAccept => simp only [howner] at hknows; exact ⟨hfalse hknows.1, hknows.2⟩
  | joiningHandlers n =>
    simp only [howner] at hknows
    refine ⟨hfalse hknows.1, hknows.2.1, ?_⟩
    -- The handlers that have been joined have ended, and this one has not.
    have hle : n ≤ c := by
      by_contra hlt
      have htake : (s.handlers.take n)[c]? = some h := by
        rw [List.getElem?_take_of_lt (not_le.mp hlt), hs.found]
      have hfinished := hknows.2.2 h (List.mem_of_getElem? htake)
      exact Bool.false_ne_true (hs.lives.symm.trans hfinished)
    rw [List.take_set_of_le hle]
    exact hknows.2.2
  | stopped | destroyed =>
    simp only [howner] at hknows
    have hfound := hs.found
    rw [hknows.2.2] at hfound
    exact absurd hfound (by simp)

theorem InOrder.handler {e : HandlerEvent} (hs : InOrder s) (h : Moves σ s (.handler c e) s') :
    InOrder s' := by
  rcases h.changesHandler with ⟨rfl, -⟩ | ⟨h, h', hchange⟩
  · exact ⟨hs.active_eq, hs.active_le, hs.knows⟩
  · have hactive := hs.active_eq
    obtain ⟨hpos, hunfinished⟩ := hchange.unfinished_eq
    refine ⟨?_, ?_, hchange.ownerKnows hs.knows⟩
    · rw [hchange.active, hunfinished, hchange.accepting, hactive]
      split_ifs <;> omega
    · rw [hchange.active]
      exact (Nat.sub_le _ _).trans hs.active_le

/-- The accept thread moves only until it has been joined. -/
theorem OwnerKnows.accept {accepting : AcceptStage} {active : ℕ} {handlers : List Handler}
    (hs : s.OwnerKnows) (hlives : s.accepting ≠ .finished) :
    OwnerKnows { s with accepting := accepting, active := active, handlers := handlers } := by
  unfold OwnerKnows at hs ⊢
  cases howner : s.owner with
  | outside => trivial
  | closingListener | joiningAccept | aborted => simpa only [howner] using hs
  | joiningHandlers | stopped | destroyed =>
    simp only [howner] at hs
    exact absurd hs.2.1 hlives

theorem InOrder.accept {e : AcceptEvent} (hs : InOrder s) (h : Moves σ s (.accept e) s') :
    InOrder s' := by
  have hactive := hs.active_eq
  have hle := hs.active_le
  cases h with
  | connects haccepting | failsToAccept haccepting | waits haccepting | retries haccepting
  | refuses haccepting =>
    exact ⟨by simpa [haccepting] using hactive, hle, hs.knows.accept (by simp [haccepting])⟩
  | leaves haccepting =>
    refine ⟨?_, hle, hs.knows.accept ?_⟩
    · rcases haccepting with haccepting | haccepting <;> simpa [haccepting] using hactive
    · rcases haccepting with haccepting | haccepting <;> simp [haccepting]
  | counts haccepting hroom =>
    refine ⟨?_, hroom, hs.knows.accept (by simp [haccepting])⟩
    simpa [haccepting, unfinished] using hactive
  | serves haccepting =>
    refine ⟨?_, hle, hs.knows.accept (by simp [haccepting])⟩
    simpa [haccepting, unfinished, Handler.isFinished] using hactive

theorem InOrder.owner {e : OwnerEvent} (hs : InOrder s) (h : Moves σ s (.owner e) s') :
    InOrder s' := by
  have hknows := hs.knows
  unfold OwnerKnows at hknows
  cases h with
  | stops howner hrunning => exact ⟨hs.active_eq, hs.active_le, rfl⟩
  | closesListener howner =>
    rw [howner] at hknows
    exact ⟨hs.active_eq, hs.active_le, hknows, rfl⟩
  | joinsAccept howner haccepting =>
    rw [howner] at hknows
    exact ⟨hs.active_eq, hs.active_le, hknows.1, haccepting, by simp⟩
  | @joinsHandler n h howner hn hfinished =>
    rw [howner] at hknows
    refine ⟨hs.active_eq, hs.active_le, hknows.1, hknows.2.1, fun h' hmem => ?_⟩
    rw [List.take_add_one, hn] at hmem
    rcases List.mem_append.mp hmem with hmem | hmem
    · exact hknows.2.2 h' hmem
    · obtain rfl := List.mem_singleton.mp hmem
      exact hfinished
  | @hasJoined n howner hn =>
    rw [howner] at hknows
    have hall : s.handlers.take n = s.handlers :=
      List.take_of_length_le (List.getElem?_eq_none_iff.mp hn)
    have hnone : unfinished s.handlers = 0 := by
      refine List.countP_eq_zero.mpr fun h hmem => ?_
      simp [hknows.2.2 h (hall.symm ▸ hmem)]
    have hactive := hs.active_eq
    rw [hnone] at hactive
    exact ⟨hactive, hs.active_le, hknows.1, hknows.2.1, rfl⟩
  | aborts howner hrunning => exact ⟨hs.active_eq, hs.active_le, hrunning⟩
  | destroys howner =>
    rw [howner] at hknows
    exact ⟨hs.active_eq, hs.active_le, hknows⟩

theorem Reachable.inOrder (h : Reachable σ s) : InOrder s := by
  refine h.invariant_of_moves inOrder_init fun s e s' _ hs hmoves => ?_
  cases e with
  | accept => exact hs.accept hmoves
  | handler => exact hs.handler hmoves
  | owner => exact hs.owner hmoves

theorem InOrder.joined (hs : InOrder s) (howner : s.owner = .stopped ∨ s.owner = .destroyed) :
    s.accepting = .finished ∧ s.handlers = [] := by
  have hknows := hs.knows
  unfold OwnerKnows at hknows
  rcases howner with howner | howner
  · rw [howner] at hknows
    exact hknows.2
  · rw [howner] at hknows
    exact hknows.2

theorem InOrder.lowered (hs : InOrder s) (howner : s.owner ≠ .outside) : s.running = false := by
  have hknows := hs.knows
  unfold OwnerKnows at hknows
  cases howner' : s.owner with
  | outside => exact absurd howner' howner
  | closingListener | aborted =>
    rw [howner'] at hknows
    exact hknows
  | joiningAccept | joiningHandlers | stopped | destroyed =>
    rw [howner'] at hknows
    exact hknows.1

/-- Never more than the limit of connections are served, and `active_` counts them, with the
one whose thread is about to be created. -/
theorem active_counts_unfinished (h : Reachable σ s) :
    s.active = unfinished s.handlers + (if s.accepting = .counted then 1 else 0) ∧
      s.active ≤ kMaxConcurrentConnections :=
  ⟨h.inOrder.active_eq, h.inOrder.active_le⟩

def servedThenStopped : Threads :=
  Runs.run (step (SortBy.stable _)) {}
    [.accept .go, .accept .connect, .accept .go, .accept .go, .owner .stop]

theorem servedThenStopped_reachable : Reachable (SortBy.stable _) servedThenStopped :=
  Runs.Reachable.init.run _

theorem active_counts_unfinished_servedThenStopped :
    servedThenStopped.active = unfinished servedThenStopped.handlers +
        (if servedThenStopped.accepting = .counted then 1 else 0) ∧
      servedThenStopped.active ≤ kMaxConcurrentConnections :=
  active_counts_unfinished servedThenStopped_reachable

theorem running_step (hrunning : s.running = false) (e : Event) :
    (step σ s e).running = false := by
  rcases step_cases (σ := σ) s e with heq | ⟨-, hmoves⟩
  · rw [heq, hrunning]
  · generalize step σ s e = s' at hmoves
    cases hmoves with
    | ends | stops => rfl
    | _ => exact hrunning

/-- Where a handler has lowered the flag, `stop()` does nothing: the coordinator is not destroyed
in order, whatever happens. -/
theorem owner_run_of_lowered (howner : s.owner = .outside) (hrunning : s.running = false)
    (es : List Event) :
    (Runs.run (step σ) s es).owner = .outside ∨ (Runs.run (step σ) s es).owner = .aborted := by
  have hall : ∀ s', Runs.Reachable (step σ) s s' →
      (s'.owner = .outside ∨ s'.owner = .aborted) ∧ s'.running = false := fun s' hs' => by
    induction hs' with
    | init => exact ⟨Or.inl howner, hrunning⟩
    | @step s e _ ih =>
      obtain ⟨howner, hrunning⟩ := ih
      refine ⟨?_, running_step hrunning e⟩
      rcases step_cases (σ := σ) s e with heq | ⟨-, hmoves⟩
      · rwa [heq]
      · generalize step σ s e = s' at hmoves
        cases hmoves with
        | stops _ hup => exact absurd (hrunning.symm.trans hup) Bool.false_ne_true
        | aborts => exact Or.inr rfl
        | closesListener howner' | joinsAccept howner' | joinsHandler howner' | hasJoined howner'
        | destroys howner' => rw [howner'] at howner; simp at howner
        | _ => exact howner
  exact (hall _ (Runs.Reachable.init.run es)).1

def shutDown : Threads :=
  Runs.run (step (SortBy.stable _)) {}
    [.accept .go, .accept .connect, .accept .go, .accept .go,
      .handler 0 (.recv ⟨.shutdown, 1, []⟩), .handler 0 (.work true), .handler 0 (.send true),
      .handler 0 .go]

theorem owner_run_of_lowered_shutDown :
    let s := Runs.run (step (SortBy.stable _)) shutDown [.owner .stop, .owner .destroy]
    s.owner = .outside ∨ s.owner = .aborted :=
  owner_run_of_lowered (by decide) (by decide) _

theorem Moves.recv_or_lose {h : Handler} {e : HandlerEvent} (hmoves : Moves σ s (.handler c e) s')
    (hc : s.handlers[c]? = some h) (hstage : h.stage = .receiving) :
    (∃ msg, e = .recv msg) ∨ e = .lose := by
  cases hmoves with
  | receives _ _ msg => exact Or.inl ⟨msg, rfl⟩
  | loses => exact Or.inr rfl
  | isAskedToEnd hc' hstage' | cannotRead hc' hstage' | registers hc' hstage'
  | answers hc' hstage' | raises hc' hstage' | buries hc' hstage' | goesOn hc' hstage'
  | givesUp hc' hstage' | ends hc' hstage' | closes hc' hstage' | returns hc' hstage' =>
    obtain rfl := Option.some.inj (hc.symm.trans hc')
    rw [hstage] at hstage'
    cases hstage'

theorem InOrder.not_joined {h : Handler} {n : ℕ} (hs : InOrder s) (hc : s.handlers[c]? = some h)
    (hlives : h.isFinished = false) (howner : s.owner = .joiningHandlers n) :
    s.handlers[n]? ≠ none := by
  intro hn
  have hknows := hs.knows
  rw [OwnerKnows, howner] at hknows
  have hall : s.handlers.take n = s.handlers :=
    List.take_of_length_le (List.getElem?_eq_none_iff.mp hn)
  have hfinished := hknows.2.2 h (hall.symm ▸ List.mem_of_getElem? hc)
  exact Bool.false_ne_true (hlives.symm.trans hfinished)

theorem receiving_step {h : Handler} (hs : InOrder s) (hc : s.handlers[c]? = some h)
    (hstage : h.stage = .receiving) {e : Event}
    (hsilent : (∀ msg, e ≠ .handler c (.recv msg)) ∧ e ≠ .handler c .lose) :
    (step σ s e).handlers[c]? = some h := by
  have hlives : h.isFinished = false := by simp [Handler.isFinished, hstage]
  rcases step_cases (σ := σ) s e with heq | ⟨-, hmoves⟩
  · rwa [heq]
  generalize step σ s e = s' at hmoves
  cases e with
  | accept =>
    cases hmoves with
    | serves =>
      have hlt : c < s.handlers.length := (List.getElem?_eq_some_iff.mp hc).1
      exact (List.getElem?_append_left hlt).trans hc
    | _ => exact hc
  | owner =>
    cases hmoves with
    | hasJoined howner hn => exact absurd hn (hs.not_joined hc hlives howner)
    | _ => exact hc
  | handler c' e =>
    rcases eq_or_ne c' c with rfl | hne
    · rcases hmoves.recv_or_lose hc hstage with ⟨msg, rfl⟩ | rfl
      · exact absurd rfl (hsilent.1 msg)
      · exact absurd rfl hsilent.2
    · rcases hmoves.changesHandler with ⟨rfl, -⟩ | ⟨_, _, hchange⟩
      · exact hc
      · rw [hchange.handlers, List.getElem?_set_ne hne, hc]

/-- `stop()` does not return while a connection is open on which nothing arrives. -/
theorem stop_waits_for_silent_peer {h : Handler} (hreach : Reachable σ s)
    (hc : s.handlers[c]? = some h) (hstage : h.stage = .receiving) {es : List Event}
    (hsilent : ∀ e ∈ es, (∀ msg, e ≠ .handler c (.recv msg)) ∧ e ≠ .handler c .lose) :
    (Runs.run (step σ) s es).handlers[c]? = some h ∧
      (Runs.run (step σ) s es).owner ≠ .stopped ∧
      (Runs.run (step σ) s es).owner ≠ .destroyed := by
  induction es generalizing s with
  | nil =>
    have hserved : s.handlers ≠ [] := List.ne_nil_of_mem (List.mem_of_getElem? hc)
    exact ⟨hc, fun howner => hserved (hreach.inOrder.joined (Or.inl howner)).2,
      fun howner => hserved (hreach.inOrder.joined (Or.inr howner)).2⟩
  | cons e es ih =>
    refine ih (hreach.step e) ?_ fun e' he' => hsilent e' (List.mem_cons_of_mem _ he')
    exact receiving_step hreach.inOrder hc hstage (hsilent e List.mem_cons_self)

theorem stop_waits_for_silent_peer_servedThenStopped :
    let es : List Event := [.owner .go, .accept .go, .owner .go, .owner .go]
    let s := Runs.run (step (SortBy.stable _)) servedThenStopped es
    s.handlers[0]? = some { stage := .receiving } ∧ s.owner ≠ .stopped ∧ s.owner ≠ .destroyed :=
  stop_waits_for_silent_peer (c := 0) (h := { stage := .receiving }) servedThenStopped_reachable
    rfl rfl (by simp)

/-- Once `stop()` has returned with every thread joined, nothing is served and nothing but the
destruction of the coordinator changes anything. -/
theorem run_of_stopped (hreach : Reachable σ s) (howner : s.owner = .stopped) {es : List Event}
    (hes : Event.owner .destroy ∉ es) :
    s.active = 0 ∧ s.accepting = .finished ∧ s.handlers = [] ∧ Runs.run (step σ) s es = s := by
  obtain ⟨haccepting, hhandlers⟩ := hreach.inOrder.joined (Or.inl howner)
  have hactive : s.active = 0 := by
    rw [hreach.inOrder.active_eq, haccepting, hhandlers]
    rfl
  refine ⟨hactive, haccepting, hhandlers, ?_⟩
  induction es with
  | nil => rfl
  | cons e es ih =>
    have hsame : step σ s e = s := by
      cases e with
      | accept e => cases e <;> simp [step, acceptStep, haccepting]
      | handler c e => simp [step, hhandlers]
      | owner e =>
        cases e with
        | destroy => exact absurd List.mem_cons_self hes
        | stop | go => simp [step, ownerStep, howner]
    rw [Runs.run_cons, hsame]
    exact ih fun hmem => hes (List.mem_cons_of_mem _ hmem)

def stoppedAlone : Threads :=
  Runs.run (step (SortBy.stable _)) {}
    [.accept .go, .owner .stop, .owner .go, .accept .fail, .accept .go, .owner .go, .owner .go]

theorem run_of_stopped_stoppedAlone :
    stoppedAlone.active = 0 ∧ stoppedAlone.accepting = .finished ∧ stoppedAlone.handlers = [] ∧
      Runs.run (step (SortBy.stable _)) stoppedAlone [.accept .connect, .owner .stop] =
        stoppedAlone :=
  run_of_stopped (Runs.Reachable.init.run _) (by decide) (by simp)

end Threads

end CapacityFabric
