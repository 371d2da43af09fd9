import CapacityFabric.Foundation.Runs
import CapacityFabric.Coordinator.Requests

/-!
# What ends the coordinator

The flag that says that the coordinator runs is lowered on request, and on every path on
which the result of `dispatch` is false.
-/

namespace CapacityFabric

namespace Coordinator

variable (σ : EventSort)

/-- A Shutdown frame arrives or `stop` is called. -/
def asksForEnd (s : Coordinator) : Event → Bool
  | .stop => true
  | e => deliversShutdown s e

def askedStep (s : Coordinator × Bool) (e : Event) : Coordinator × Bool :=
  (step σ s.1 e, s.2 || asksForEnd s.1 e)

/-- The coordinator runs until it is asked to end. -/
def RunsUntilAsked (s : Coordinator × Bool) : Prop := s.1.running = false → s.2 = true

/-- Until the end is asked for, a request that arrives does not raise, neither while its
payload is read nor in the sums of a query, and its reply can be sent. -/
def Served (s : Coordinator × Bool) : Event → Prop
  | .frame c msg sent _ => s.2 = false → s.1.connections.contains c = true →
    msg.type ≠ .register → msg.type ≠ .shutdown → ¬Fails s.1.model msg ∧ sent = true
  | _ => True

theorem running_handleFrame_register (s : Coordinator) (c : ConnectionId) {msg : FramedMessage}
    (sent saved : Bool) (hregister : msg.type = .register) :
    (s.handleFrame σ c msg sent saved).running = s.running := by
  unfold handleFrame
  rw [hregister]
  dsimp only
  split <;> rfl

/-- A request on an open connection leaves the coordinator running precisely when it does not
raise and its reply can be sent. -/
theorem runsUntilAsked_frame_iff {s : Coordinator} (hrunning : s.running = true)
    (c : ConnectionId) (msg : FramedMessage) (sent saved : Bool) :
    RunsUntilAsked (askedStep σ (s, false) (.frame c msg sent saved)) ↔
      Served (s, false) (.frame c msg sent saved) := by
  cases hfind : s.connections.find? c with
  | none =>
    have hclosed : s.connections.contains c = false := by simp [OrderedMap.contains, hfind]
    refine iff_of_true (fun hstopped => ?_) fun _ hopen => ?_
    · simp only [askedStep, step, hfind] at hstopped
      exact absurd (hrunning.symm.trans hstopped) Bool.true_eq_false.mp
    · exact absurd (hclosed.symm.trans hopen) Bool.false_ne_true
  | some curWorker =>
    have hopen : s.connections.contains c = true := by simp [OrderedMap.contains, hfind]
    have hstep : step σ s (.frame c msg sent saved) = s.handleFrame σ c msg sent saved := by
      simp only [step, hfind]
    by_cases hregister : msg.type = .register
    · refine iff_of_true (fun hstopped => ?_) fun _ _ hno => absurd hregister hno
      simp only [askedStep, hstep, running_handleFrame_register σ s c sent saved hregister]
        at hstopped
      exact absurd (hrunning.symm.trans hstopped) Bool.true_eq_false.mp
    by_cases hshutdown : msg.type = .shutdown
    · refine iff_of_true (fun _ => ?_) fun _ _ _ hno => absurd hshutdown hno
      simp [askedStep, asksForEnd, deliversShutdown, hopen, hshutdown]
    -- It ends the process by an exception, or the service where no reply goes out.
    have hserved : Served (s, false) (.frame c msg sent saved) ↔
        ¬Fails s.model msg ∧ sent = true :=
      ⟨fun h => h rfl hopen hregister hshutdown, fun h _ _ _ _ => h⟩
    rw [hserved, RunsUntilAsked, askedStep, hstep]
    by_cases hfails : Fails s.model msg
    · rw [handleFrame_of_fails σ s c sent saved hregister hshutdown hfails]
      simp [terminate, asksForEnd, deliversShutdown, hshutdown, hfails]
    · rw [handleFrame_of_answered σ s c sent saved hregister hshutdown hfails]
      cases sent <;> simp [asksForEnd, deliversShutdown, hshutdown, hrunning, hfails]

theorem runsUntilAsked_step_iff {s : Coordinator × Bool} (h : RunsUntilAsked s) (e : Event) :
    RunsUntilAsked (askedStep σ s e) ↔ Served s e := by
  obtain ⟨s, asked⟩ := s
  -- Once it has been asked, nothing is left to show.
  cases asked with
  | true =>
    refine iff_of_true (fun _ => by simp [askedStep]) ?_
    cases e with
    | frame => exact fun h => absurd h Bool.true_eq_false.mp
    | _ => trivial
  | false =>
    have hrunning : s.running = true := by
      by_contra hstopped
      exact Bool.false_ne_true (h (Bool.not_eq_true _ ▸ hstopped))
    have hkeeps : (step σ s e).running = true → RunsUntilAsked (askedStep σ (s, false) e) :=
      fun hkept hstopped => absurd (hkept.symm.trans hstopped) Bool.true_eq_false.mp
    cases e with
    | stop => exact iff_of_true (fun _ => rfl) trivial
    | accept c =>
      refine iff_of_true (hkeeps ?_) trivial
      unfold step
      dsimp only
      split_ifs <;> exact hrunning
    | lost c =>
      refine iff_of_true (hkeeps ?_) trivial
      unfold step
      dsimp only
      split <;> exact hrunning
    | frame c msg sent saved => exact runsUntilAsked_frame_iff σ hrunning c msg sent saved

/-- The coordinator runs until a Shutdown frame arrives or `stop` is called precisely when
every request up to then is served. -/
theorem runs_until_asked_iff {s : Coordinator} (hrunning : s.running = true)
    (events : List Event) :
    (∀ before, before <+: events →
      RunsUntilAsked (Runs.run (askedStep σ) (s, false) before)) ↔
    Runs.Always (askedStep σ) Served (s, false) events := by
  have hstart : RunsUntilAsked (s, false) := fun hstopped =>
    absurd (hrunning.symm.trans hstopped) Bool.true_eq_false.mp
  exact Runs.forall_prefix_iff_always (φ := RunsUntilAsked)
    (fun _ e h _ => runsUntilAsked_step_iff σ h e) hstart (Runs.always_true _ events)

def helloThenGone : List Event := [.accept 1, .frame 1 ⟨.hello, 1, []⟩ false true]

theorem runs_until_asked_iff_helloThenGone :
    (∀ before, before <+: helloThenGone →
      RunsUntilAsked (Runs.run (askedStep (SortBy.stable _)) ({}, false) before)) ↔
    Runs.Always (askedStep (SortBy.stable _)) Served ({}, false) helloThenGone :=
  runs_until_asked_iff (SortBy.stable _) rfl helloThenGone

theorem failed_reply_ends_coordinator :
    ¬ ∀ (σ : EventSort) (events before : List Event), before <+: events →
      RunsUntilAsked (Runs.run (askedStep σ) ({}, false) before) := by
  intro h
  have hasked := h (SortBy.stable _) helloThenGone helloThenGone List.prefix_rfl
  exact Bool.false_ne_true (hasked (by decide +kernel))

end Coordinator

end CapacityFabric
