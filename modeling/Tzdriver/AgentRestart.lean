import Tzdriver.AgentHandshake

/-!
# A request is not lost over a restart of the agent

A CA that waits in `wait_agent_response` needs `ret_flag`, which the agent sees, or `ca_run`,
which releases it. A response clears the first and sets the second in two stores, and in
between it owes the CA its release. `init_restart_agent_node` clears both flags without a look
at the CA: a CA that came past the check of `agent_ready` before the crash, or that has been
released and did not run yet, then sleeps with neither.
-/

namespace AgentHandshake

open ActionSystem Function

/-- A response has cleared `ret_flag` and is about to set `ca_run`. -/
def Releasing (s : Sys) : Prop :=
  (∃ n, s.agent = .responding n .setCaRun) ∨ ∃ i, s.reapers i = .responding .setCaRun

/-- The request of a waiting CA is visible, or the CA is released or about to be. -/
def NotLost (s : Sys) : Prop :=
  s.ca = .waiting → s.node.retFlag = true ∨ s.node.caRun = true ∨ Releasing s

/-- While a CA waits, a restart takes `ret_flag` away only if the CA is released, and `ca_run`
only if its request is visible. -/
def RestartSafe (s : Sys) (a : Act) : Prop :=
  (a = .agent .restart → s.agent = .restarting .clearRetFlag → s.ca = .waiting →
    s.node.caRun = true ∨ Releasing s) ∧
  (a = .agent .restart → s.agent = .restarting .clearCaRun → s.ca = .waiting →
    s.node.retFlag = true ∨ Releasing s)

section Steps

variable {s s' : Sys}

/-- The CA itself does not lose its request. -/
theorem agentProcessWork_notLost {a : CaAct} (kept : NotLost s)
    (moved : agentProcessWork s a s.ca = some s') : NotLost s' := by
  intro waits
  cases here : s.ca with
  | outside | entered | timedOut | leaving =>
    rw [here] at moved
    cases a with
    | call | checkReady | setRetFlag | wake | timeout | clearRetFlag | clearCaRun =>
      simp only [agentProcessWork] at moved
      grind [Sys.leave]
  | checked =>
    rw [here] at moved
    cases a with
    | setRetFlag =>
      obtain rfl := Option.some.inj moved
      exact Or.inl rfl
    | _ => simp [agentProcessWork] at moved
  | waiting =>
    rw [here] at moved
    cases a with
    | wake =>
      simp only [agentProcessWork] at moved
      split at moved
      · obtain rfl := Option.some.inj moved
        cases waits
      · cases moved
    | timeout sigkill =>
      simp only [agentProcessWork] at moved
      split at moved
      · cases moved
      · split at moved
        · obtain rfl := Option.some.inj moved
          cases waits
        · obtain rfl := Option.some.inj moved
          exact kept here
    | _ => simp [agentProcessWork] at moved

/-- A responder that has cleared `ret_flag` is the one that sets `ca_run`. -/
theorem responding_notLost {node : EventData} {r : Responder} {pc : RespondPc} {P : Prop}
    (kept : node.retFlag = true ∨ node.caRun = true ∨ P ∨ pc = .setCaRun) :
    (processSendEventResponse node r pc).1.retFlag = true ∨
      (processSendEventResponse node r pc).1.caRun = true ∨ P ∨
      (processSendEventResponse node r pc).2 = some .setCaRun := by
  cases pc with
  | testRetFlag =>
    rcases kept with flag | run | other | ⟨⟨⟩⟩
    · exact Or.inl flag
    · exact Or.inr (Or.inl run)
    · exact Or.inr (Or.inr (Or.inl other))
  | clearRetFlag => exact Or.inr (Or.inr (Or.inr rfl))
  | setCaRun => exact Or.inr (Or.inl rfl)

theorem sendEventResponse_notLost {i : Nat} (kept : NotLost s)
    (moved : sendEventResponse s i (s.reapers i) = some s') : NotLost s' := by
  intro waits
  cases here : s.reapers i with
  | outside => simp [here, sendEventResponse] at moved
  | setCrashed =>
    rw [here] at moved
    obtain rfl := Option.some.inj moved
    rcases kept waits with flag | run | agent | ⟨j, at_⟩
    · exact Or.inl flag
    · exact Or.inr (Or.inl run)
    · exact Or.inr (Or.inr (Or.inl agent))
    · have other : j ≠ i := by
        rintro rfl
        simp [here] at at_
      exact Or.inr (Or.inr (Or.inr ⟨j, by simp [other, at_]⟩))
  | responding pc =>
    rw [here] at moved
    simp only [sendEventResponse, Option.some.injEq] at moved
    subst moved
    -- the other responders do not move
    have before : s.node.retFlag = true ∨ s.node.caRun = true ∨
        ((∃ n, s.agent = .responding n .setCaRun) ∨
          ∃ j, j ≠ i ∧ s.reapers j = .responding .setCaRun) ∨ pc = .setCaRun := by
      rcases kept waits with flag | run | agent | ⟨j, at_⟩
      · exact Or.inl flag
      · exact Or.inr (Or.inl run)
      · exact Or.inr (Or.inr (Or.inl (Or.inl agent)))
      · by_cases same : j = i
        · subst same
          rw [here] at at_
          exact Or.inr (Or.inr (Or.inr (ReaperPc.responding.inj at_)))
        · exact Or.inr (Or.inr (Or.inl (Or.inr ⟨j, same, at_⟩)))
    rcases responding_notLost (r := .reaper) before with flag | run | others | next
    · exact Or.inl flag
    · exact Or.inr (Or.inl run)
    · rcases others with agent | ⟨j, other, at_⟩
      · exact Or.inr (Or.inr (Or.inl agent))
      · exact Or.inr (Or.inr (Or.inr ⟨j, by simp [other, at_]⟩))
    · exact Or.inr (Or.inr (Or.inr ⟨i, by simp [next]⟩))

/-- A step that keeps both flags, the CA and the responders. -/
theorem NotLost.frame (kept : NotLost s) (ca : s'.ca = s.ca)
    (flag : s'.node.retFlag = s.node.retFlag) (run : s'.node.caRun = s.node.caRun)
    (releasing : Releasing s → Releasing s') : NotLost s' := by
  intro waits
  rw [flag, run]
  rcases kept (ca ▸ waits) with visible | released | soon
  · exact Or.inl visible
  · exact Or.inr (Or.inl released)
  · exact Or.inr (Or.inr (releasing soon))

theorem releasing_reaper (notAgent : ∀ n pc, s.agent ≠ .responding n pc) (soon : Releasing s) :
    ∃ i, s.reapers i = .responding .setCaRun := by
  rcases soon with ⟨n, at_⟩ | reaper
  · exact absurd at_ (notAgent n _)
  · exact reaper

theorem agentStep_notLost {a : AgentAct} (kept : NotLost s) (safe : RestartSafe s (.agent a))
    (moved : agentStep s a s.agent = some s') : NotLost s' := by
  cases here : s.agent with
  | responding n pc =>
    rw [here] at moved
    cases a with
    | respond =>
      simp only [agentStep, Option.some.injEq] at moved
      subst moved
      intro waits
      have before : s.node.retFlag = true ∨ s.node.caRun = true ∨
          (∃ i, s.reapers i = .responding .setCaRun) ∨ pc = .setCaRun := by
        rcases kept waits with flag | run | ⟨k, at_⟩ | reaper
        · exact Or.inl flag
        · exact Or.inr (Or.inl run)
        · rw [here] at at_
          exact Or.inr (Or.inr (Or.inr (AgentPc.responding.inj at_).2))
        · exact Or.inr (Or.inr (Or.inl reaper))
      rcases responding_notLost (r := .agent n) before with flag | run | reaper | next
      · exact Or.inl flag
      · exact Or.inr (Or.inl run)
      · exact Or.inr (Or.inr (Or.inr reaper))
      · exact Or.inr (Or.inr (Or.inl ⟨n, by simp [next]⟩))
    | _ => simp [agentStep] at moved
  | restarting pc =>
    rw [here] at moved
    cases a with
    | restart =>
      simp only [agentStep, Option.some.injEq] at moved
      subst moved
      intro waits
      have reaper := releasing_reaper (s := s) (by simp [here])
      cases pc with
      | clearRetFlag =>
        rcases safe.1 rfl here waits with run | releasing
        · exact Or.inr (Or.inl run)
        · exact Or.inr (Or.inr (Or.inr (reaper releasing)))
      | setRegistered =>
        rcases kept waits with flag | run | releasing
        · exact Or.inl flag
        · exact Or.inr (Or.inl run)
        · exact Or.inr (Or.inr (Or.inr (reaper releasing)))
      | clearCaRun =>
        rcases safe.2 rfl here waits with flag | releasing
        · exact Or.inl flag
        · exact Or.inr (Or.inr (Or.inr (reaper releasing)))
    | _ => simp [agentStep] at moved
  | outside | waiting | working | dead =>
    have reaper := releasing_reaper (s := s) (by simp [here])
    rw [here] at moved
    cases a with
    | crash i =>
      obtain ⟨free, rfl⟩ : s.reapers i = .outside ∧ s' = { s with
          agent := .dead, reapers := update s.reapers i .setCrashed, crashed := true } := by
        simp only [agentStep] at moved
        grind
      refine kept.frame rfl rfl rfl fun soon => ?_
      obtain ⟨j, at_⟩ := reaper soon
      have other : j ≠ i := by
        rintro rfl
        simp [free] at at_
      exact Or.inr ⟨j, by simp [other, at_]⟩
    | _ =>
      simp only [agentStep] at moved
      obtain ⟨ca, flag, run, reapers⟩ : s'.ca = s.ca ∧ s'.node.retFlag = s.node.retFlag ∧
          s'.node.caRun = s.node.caRun ∧ s'.reapers = s.reapers := by grind
      exact kept.frame ca flag run fun soon => Or.inr (by rw [reapers]; exact reaper soon)

theorem step_notLost {a : Act} (kept : NotLost s) (safe : RestartSafe s a)
    (moved : step s a = some s') : NotLost s' := by
  cases a with
  | ca a => exact agentProcessWork_notLost kept moved
  | agent a => exact agentStep_notLost kept safe moved
  | reaper i => exact sendEventResponse_notLost kept moved

/-- A restart that takes the last flag of a waiting CA away loses the request. -/
theorem safe_of_notLost {a : Act} (moved : step s a = some s') (kept : NotLost s') :
    RestartSafe s a := by
  constructor
  · rintro rfl here waits
    simp only [step, agentStep, here, initRestartAgentNode, Option.some.injEq] at moved
    subst moved
    rcases kept waits with flag | run | ⟨n, at_⟩ | reaper
    · cases flag
    · exact Or.inl run
    · cases at_
    · exact Or.inr (Or.inr reaper)
  · rintro rfl here waits
    simp only [step, agentStep, here, initRestartAgentNode, Option.some.injEq] at moved
    subst moved
    rcases kept waits with flag | run | ⟨n, at_⟩ | reaper
    · exact Or.inl flag
    · cases run
    · cases at_
    · exact Or.inr (Or.inr reaper)

end Steps

/-- In a run whose restarts are safe a waiting CA never loses its request: outside of a
response's two stores `ret_flag` or `ca_run` is set. The next step keeps that exactly when it
is safe as well. -/
theorem requests_survive_restart {s : Sys} (run : Reach step RestartSafe {} s) :
    NotLost s ∧
      (¬ Releasing s → s.ca = .waiting → s.node.retFlag = true ∨ s.node.caRun = true) ∧
      ∀ a s', step s a = some s' → (NotLost s' ↔ RestartSafe s a) := by
  have kept : NotLost s := run.invariant (fun waits => by cases waits)
    (fun _ _ _ kept safe moved => step_notLost kept safe moved)
  refine ⟨kept, fun quiet waits => ?_, fun a s' moved => ?_⟩
  · rcases kept waits with flag | run | soon
    · exact Or.inl flag
    · exact Or.inr run
    · exact absurd soon quiet
  · exact ⟨safe_of_notLost moved, fun safe => step_notLost kept safe moved⟩

/-- The agent dies while it works on a request, its CA is released and has left before the
agent registers again, and the restarted agent gets the next request. -/
theorem requests_survive_restart_once :
    ∃ s, Reach step RestartSafe {} s ∧ s.crashed = true ∧ s.ca = .waiting ∧
      s.agent = .working 2 ∧ NotLost s := by
  obtain ⟨s, run, test⟩ := reach_of_play step
    (fun s a => a = .agent .restart → s.ca ≠ .waiting)
    (fun s => s.crashed && s.ca == .waiting && s.agent == .working 2) {}
    [.agent .waitEvent, .ca .call, .ca .checkReady, .ca .setRetFlag, .agent .wake,
      .agent (.crash 0), .reaper 0, .reaper 0, .reaper 0, .reaper 0, .ca .wake, .ca .clearCaRun,
      .agent .reuseNode, .agent .restart, .agent .restart, .agent .restart, .ca .call,
      .ca .checkReady, .ca .setRetFlag, .agent .waitEvent, .agent .wake]
    (by decide +kernel)
  simp only [Bool.and_eq_true, beq_iff_eq] at test
  obtain ⟨⟨crashed, waits⟩, works⟩ := test
  have safe : Reach step RestartSafe {} s := run.mono fun s a free =>
    ⟨fun restart _ waits => absurd waits (free restart),
      fun restart _ waits => absurd waits (free restart)⟩
  exact ⟨s, safe, crashed, waits, works, (requests_survive_restart safe).1⟩

/-- Only the thread 0 closes the file of a dead agent. -/
def oneReaper : Act → Bool
  | .agent (.crash i) => i == 0
  | _ => true

theorem reach_oneReaper {s : Sys} (run : Reach step (fun _ a => oneReaper a = true) {} s) (i : Nat)
    (other : i ≠ 0) : s.reapers i = .outside := by
  refine run.invariant (P := fun s => s.reapers i = .outside) rfl ?_
  intro s a s' free one moved
  cases a with
  | ca a =>
    cases a <;> simp only [step, agentProcessWork] at moved <;> grind [Sys.leave]
  | agent a =>
    cases a with
    | crash j =>
      obtain rfl : j = 0 := by simpa [oneReaper] using one
      have reapers : s'.reapers = update s.reapers 0 .setCrashed := by
        simp only [step, agentStep] at moved
        grind
      rw [reapers, update_of_ne other]
      exact free
    | _ =>
      simp only [step, agentStep] at moved
      grind
  | reaper j =>
    have apart : i ≠ j := by
      rintro rfl
      simp [step, sendEventResponse, free] at moved
    simp only [step] at moved
    cases here : s.reapers j with
    | outside => simp [here, sendEventResponse] at moved
    | setCrashed | responding =>
      rw [here] at moved
      obtain rfl := Option.some.inj moved
      exact (update_of_ne apart _ _).trans free

/-- The agent dies after the CA has checked `agent_ready` and before it sets `ret_flag`. The
agent registers again and waits for requests, and the CA sleeps with both flags clear. -/
theorem restart_loses_request :
    ∃ s, Reach step (fun _ _ => True) {} s ∧ s.ca = .waiting ∧ s.agent = .waiting ∧
      s.node.retFlag = false ∧ s.node.caRun = false ∧ ¬ NotLost s := by
  obtain ⟨s, run, test⟩ := reach_of_play step (fun _ a => oneReaper a = true)
    (fun s => s.ca == .waiting && s.agent == .waiting && !s.node.retFlag && !s.node.caRun &&
      s.reapers 0 == .outside) {}
    [.agent .waitEvent, .agent .interrupt, .ca .call, .ca .checkReady, .agent (.crash 0),
      .reaper 0, .reaper 0, .ca .setRetFlag, .agent .reuseNode, .agent .restart,
      .agent .restart, .agent .restart, .agent .waitEvent]
    (by decide +kernel)
  simp only [Bool.and_eq_true, beq_iff_eq, Bool.not_eq_true'] at test
  obtain ⟨⟨⟨⟨waits, agent⟩, flag⟩, off⟩, reaper⟩ := test
  refine ⟨s, run.mono fun _ _ _ => trivial, waits, agent, flag, off, fun kept => ?_⟩
  rcases kept waits with visible | released | ⟨n, at_⟩ | ⟨i, at_⟩
  · simp [flag] at visible
  · simp [off] at released
  · simp [agent] at at_
  · by_cases first : i = 0
    · simp [first, reaper] at at_
    · simp [reach_oneReaper run i first] at at_

end AgentHandshake
