import CapacityFabric.Coordinator.Stopping

/-!
# `stop()` comes to its end

Once `stop()` has been called, each step that takes nothing new from outside brings the
threads closer to their end, and until then there is always such a step: no interleaving
leaves the owner waiting for ever, if the peers go.
-/

namespace CapacityFabric

def HandlerStage.remaining : HandlerStage → ℕ
  | .finished => 0
  | .returned => 1
  | .closing => 2
  | .ending | .lost => 3
  | .receiving => 4
  | .replying _ _ => 5
  | .received _ => 6

def AcceptStage.remaining : AcceptStage → ℕ
  | .finished => 0
  | .testing | .failed => 1
  | .waiting => 2
  -- The handler to come has its own steps, and will be joined.
  | .counted => 7
  | .accepted => 8

def OwnerStage.remaining (handlers : ℕ) : OwnerStage → ℕ
  | .outside | .destroyed | .aborted => 0
  | .stopped => 1
  | .joiningHandlers n => handlers - n + 2
  | .joiningAccept => handlers + 3
  | .closingListener => handlers + 4

namespace Threads

variable {σ : EventSort} {s s' : Threads} {c : ConnectionId}

def handlersRemaining (handlers : List Handler) : ℕ :=
  (handlers.map fun h => h.stage.remaining).sum

/-- The steps that are left once the flag has been lowered, if nothing new comes. -/
def remaining (s : Threads) : ℕ :=
  handlersRemaining s.handlers + s.accepting.remaining + s.owner.remaining s.handlers.length +
    if s.terminated then 0 else 1

def Event.isQuiet : Event → Bool
  | .accept .connect => false
  | .handler _ (.recv _) => false
  | .owner .destroy => false
  | _ => true

theorem handlersRemaining_set_lt {handlers : List Handler} {h h' : Handler}
    (hc : handlers[c]? = some h) (hlt : h'.stage.remaining < h.stage.remaining) :
    handlersRemaining (handlers.set c h') < handlersRemaining handlers := by
  obtain ⟨hlen, hget⟩ := List.getElem?_eq_some_iff.mp hc
  unfold handlersRemaining
  induction handlers generalizing c with
  | nil => exact absurd hlen (Nat.not_lt_zero _)
  | cons h₀ handlers ih =>
    cases c with
    | zero =>
      obtain rfl : h₀ = h := hget
      simpa using hlt
    | succ c => simpa using ih (by simpa using hc) (by simpa using hlen) (by simpa using hget)

/-- A quiet move of a handler takes it a stage further. -/
theorem Moves.remaining_handler_lt {e : HandlerEvent} (hmoves : Moves σ s (.handler c e) s')
    (hover : s.isOver = false) (hquiet : (Event.handler c e).isQuiet = true) :
    remaining s' < remaining s := by
  have hlives : s.terminated = false := by
    by_contra hno
    simp [isOver, Bool.not_eq_false _ ▸ hno] at hover
  have hset : ∀ {h h' : Handler}, s.handlers[c]? = some h →
      h'.stage.remaining < h.stage.remaining → s'.handlers = s.handlers.set c h' →
      s'.accepting = s.accepting → s'.owner = s.owner → s'.terminated = s.terminated →
      remaining s' < remaining s := by
    intro h h' hc hlt hhandlers haccepting howner hterminated
    have := handlersRemaining_set_lt hc hlt
    rw [remaining, remaining, hhandlers, haccepting, howner, hterminated, List.length_set]
    omega
  cases hmoves with
  | receives => exact absurd hquiet Bool.false_ne_true
  | raises =>
    simp only [remaining, hlives, if_true, Bool.false_eq_true, if_false]
    omega
  | loses hc hstage | isAskedToEnd hc hstage | cannotRead hc hstage | registers hc hstage
  | answers hc hstage | buries hc hstage | goesOn hc hstage | givesUp hc hstage
  | ends hc hstage | closes hc hstage | returns hc hstage =>
    refine hset hc ?_ rfl rfl rfl rfl
    simp [hstage, HandlerStage.remaining]

theorem Moves.remaining_accept_lt {e : AcceptEvent} (hmoves : Moves σ s (.accept e) s')
    (hrunning : s.running = false) (hquiet : (Event.accept e).isQuiet = true) :
    remaining s' < remaining s := by
  cases hmoves with
  | connects => exact absurd hquiet Bool.false_ne_true
  | waits _ hup | retries _ hup => exact absurd (hrunning.symm.trans hup) Bool.false_ne_true
  | failsToAccept haccepting | refuses haccepting | counts haccepting =>
    simp [remaining, haccepting, AcceptStage.remaining]
  | leaves haccepting =>
    rcases haccepting with haccepting | haccepting <;>
      simp [remaining, haccepting, AcceptStage.remaining]
  | serves haccepting =>
    have hjoin : ∀ n, s.owner.remaining (n + 1) ≤ s.owner.remaining n + 1 := fun n => by
      cases s.owner <;> simp only [OwnerStage.remaining] <;> omega
    have := hjoin s.handlers.length
    have hnew : handlersRemaining (s.handlers ++ [({} : Handler)]) =
        handlersRemaining s.handlers + 4 := by
      simp [handlersRemaining, HandlerStage.remaining]
    simp only [remaining, haccepting, AcceptStage.remaining, hnew, List.length_append,
      List.length_singleton]
    omega

theorem Moves.remaining_owner_lt {e : OwnerEvent} (hmoves : Moves σ s (.owner e) s')
    (howner : s.owner ≠ .outside) :
    remaining s' < remaining s := by
  cases hmoves with
  | stops howner' | aborts howner' => exact absurd howner' howner
  | closesListener howner' | joinsAccept howner' | destroys howner' =>
    simp [remaining, howner', OwnerStage.remaining]
  | joinsHandler howner' hn =>
    have hlt := (List.getElem?_eq_some_iff.mp hn).1
    simp only [remaining, howner', OwnerStage.remaining]
    omega
  | hasJoined howner' =>
    simp only [remaining, howner', OwnerStage.remaining, handlersRemaining, List.map_nil,
      List.sum_nil]
    omega

/-- Once `stop()` has been called, a move that takes nothing new leaves less to do. -/
theorem Moves.remaining_lt {e : Event} (hmoves : Moves σ s e s') (hover : s.isOver = false)
    (hs : InOrder s) (howner : s.owner ≠ .outside) (hquiet : e.isQuiet = true) :
    remaining s' < remaining s := by
  cases e with
  | accept => exact hmoves.remaining_accept_lt (hs.lowered howner) hquiet
  | handler => exact hmoves.remaining_handler_lt hover hquiet
  | owner => exact hmoves.remaining_owner_lt howner

theorem owner_step_ne_outside (howner : s.owner ≠ .outside) (e : Event) :
    (step σ s e).owner ≠ .outside := by
  rcases step_cases (σ := σ) s e with heq | ⟨-, hmoves⟩
  · rwa [heq]
  · generalize step σ s e = s' at hmoves
    cases hmoves with
    | stops howner' => exact absurd howner' howner
    | closesListener | joinsAccept | joinsHandler | hasJoined | aborts | destroys => simp
    | _ => exact howner

theorem exists_handler_move {h : Handler} (hc : s.handlers[c]? = some h)
    (hlives : h.isFinished = false) :
    ∃ e s', Event.isQuiet (.handler c e) = true ∧ Moves σ s (.handler c e) s' := by
  cases hstage : h.stage with
  | receiving => exact ⟨_, _, rfl, .loses hc hstage⟩
  | received msg => exact ⟨_, _, rfl, handle_cases hc hstage true⟩
  | lost => exact ⟨_, _, rfl, .buries hc hstage true⟩
  | replying reply next =>
    cases next with
    | goOn => exact ⟨.send true, _, rfl, .goesOn hc hstage (Or.inl rfl)⟩
    | goOnIfSent => exact ⟨.send true, _, rfl, .goesOn hc hstage (Or.inr ⟨rfl, rfl⟩)⟩
    | endCoordinator => exact ⟨.send true, _, rfl, .givesUp hc hstage (Or.inl rfl)⟩
  | ending => exact ⟨_, _, rfl, .ends hc hstage⟩
  | closing => exact ⟨_, _, rfl, .closes hc hstage⟩
  | returned => exact ⟨_, _, rfl, .returns hc hstage⟩
  | finished =>
    rw [Handler.isFinished, hstage] at hlives
    exact absurd hlives Bool.true_eq_false.mp

theorem exists_accept_move (hrunning : s.running = false) (haccepting : s.accepting ≠ .finished) :
    ∃ e s', Event.isQuiet (.accept e) = true ∧ Moves σ s (.accept e) s' := by
  cases hstage : s.accepting with
  | testing => exact ⟨_, _, rfl, .leaves (Or.inl hstage) hrunning⟩
  | waiting => exact ⟨_, _, rfl, .failsToAccept hstage⟩
  | failed => exact ⟨_, _, rfl, .leaves (Or.inr hstage) hrunning⟩
  | accepted =>
    rcases lt_or_ge s.active kMaxConcurrentConnections with hroom | hfull
    · exact ⟨_, _, rfl, .counts hstage hroom⟩
    · exact ⟨_, _, rfl, .refuses hstage hfull⟩
  | counted => exact ⟨_, _, rfl, .serves hstage⟩
  | finished => exact absurd hstage haccepting

/-- Until `stop()` has returned some thread can go on without anything new: the owner waits
only for threads that can end. -/
theorem exists_quiet_move (howner : s.owner ≠ .outside) (hstopped : s.owner ≠ .stopped)
    (hs : InOrder s) (hover : s.isOver = false) :
    ∃ e s', Event.isQuiet e = true ∧ Moves σ s e s' := by
  cases hstage : s.owner with
  | outside => exact absurd hstage howner
  | closingListener => exact ⟨_, _, rfl, .closesListener hstage⟩
  | joiningAccept =>
    by_cases haccepting : s.accepting = .finished
    · exact ⟨_, _, rfl, .joinsAccept hstage haccepting⟩
    · obtain ⟨e, s', hquiet, hmoves⟩ := exists_accept_move (hs.lowered howner) haccepting
      exact ⟨_, s', hquiet, hmoves⟩
  | joiningHandlers n =>
    cases hn : s.handlers[n]? with
    | none => exact ⟨_, _, rfl, .hasJoined hstage hn⟩
    | some h =>
      cases hfinished : h.isFinished with
      | true => exact ⟨_, _, rfl, .joinsHandler hstage hn hfinished⟩
      | false =>
        obtain ⟨e, s', hquiet, hmoves⟩ := exists_handler_move hn hfinished
        exact ⟨_, s', hquiet, hmoves⟩
  | stopped => exact absurd hstage hstopped
  | destroyed | aborted => simp [isOver, hstage] at hover

/-- However the threads interleave after the call of `stop()`, they come to rest when nothing new
arrives, and where they rest `stop()` has returned, unless an exception has ended the process. -/
theorem stop_returns (hreach : Reachable σ s) (howner : s.owner ≠ .outside) {es : List Event}
    (hquiet : ∀ e ∈ es, e.isQuiet = true)
    (heffect : Runs.Always (step σ) (fun s e => step σ s e ≠ s) s es) :
    es.length ≤ remaining s ∧
      ((∀ e, e.isQuiet = true → step σ (Runs.run (step σ) s es) e = Runs.run (step σ) s es) →
        (Runs.run (step σ) s es).owner = .stopped ∨ (Runs.run (step σ) s es).isOver = true) := by
  induction es generalizing s with
  | nil =>
    refine ⟨Nat.zero_le _, fun hrest => ?_⟩
    by_contra hno
    obtain ⟨hstopped, hover⟩ := not_or.mp hno
    have hlives : s.isOver = false := Bool.not_eq_true _ ▸ hover
    obtain ⟨e, s', hquiet, hmoves⟩ :=
      exists_quiet_move (σ := σ) howner hstopped hreach.inOrder hlives
    have hlt := hmoves.remaining_lt hlives hreach.inOrder howner hquiet
    have hsame : step σ s e = s := hrest e hquiet
    rw [← hmoves.step_eq hlives, hsame] at hlt
    exact lt_irrefl _ hlt
  | cons e es ih =>
    obtain ⟨hchange, heffect⟩ := heffect
    obtain ⟨hover, hmoves⟩ := (step_cases (σ := σ) s e).resolve_left hchange
    have hlt := hmoves.remaining_lt hover hreach.inOrder howner (hquiet e List.mem_cons_self)
    obtain ⟨hlen, hrest⟩ := ih (hreach.step e) (owner_step_ne_outside howner e)
      (fun e' he' => hquiet e' (List.mem_cons_of_mem _ he')) heffect
    refine ⟨?_, hrest⟩
    rw [List.length_cons]
    omega

def closesAndLoses : List Event :=
  [.owner .go, .handler 0 .lose, .handler 0 (.work true), .handler 0 .go]

theorem stop_returns_closesAndLoses :
    let s := Runs.run (step (SortBy.stable _)) servedThenStopped closesAndLoses
    closesAndLoses.length ≤ remaining servedThenStopped ∧
      ((∀ e, e.isQuiet = true → step (SortBy.stable _) s e = s) →
        s.owner = .stopped ∨ s.isOver = true) := by
  refine stop_returns servedThenStopped_reachable (by decide) (by decide)
    ⟨fun h => ?_, fun h => ?_, fun h => ?_, fun h => ?_, trivial⟩
  · exact absurd (congrArg Threads.listening h) (by decide)
  · exact absurd (congrArg (fun s => handlersRemaining s.handlers) h) (by decide)
  · exact absurd (congrArg (fun s => handlersRemaining s.handlers) h) (by decide)
  · exact absurd (congrArg (fun s => handlersRemaining s.handlers) h) (by decide)

end Threads

end CapacityFabric
