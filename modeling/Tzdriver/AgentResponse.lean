import Tzdriver.AgentHandshake

/-!
# An agent's response answers the request it was given for

`ret_flag` and `ca_run` do not say which request they belong to. They are unambiguous as
long as a CA sets `ret_flag` only when the agent is done with every earlier request and no
earlier release is left in `ca_run`. A CA that is killed while the agent works leaves both
behind: its `ret_flag = 0` is undone by the next request, and the late response then
releases that request.
-/

namespace AgentHandshake

open ActionSystem

/-- Every CA that came back with 0 was released by the response to its own request, and
the response to a killed CA's request released nobody else. -/
structure Answered (s : Sys) : Prop where
  own : ∀ r ∈ s.returns, r.ret = 0 → r.crashed = false →
    r.releasedBy = some (.agent r.request)
  killed : ∀ k ∈ s.returns, k.ret = eFault → ∀ r ∈ s.returns, r.ret = 0 → r.crashed = false →
    r.request ≠ k.request → r.releasedBy ≠ some (.agent k.request)

/-- Between the return of `tc_ns_wait_event` and the end of `tc_ns_send_event_response`. -/
def AgentPc.handling : AgentPc → Bool
  | .working _ | .responding _ _ => true
  | .outside | .waiting | .dead | .restarting _ => false

/-- A CA sets `ret_flag` only when the agent handles no earlier request and `ca_run` is
clear. -/
def Settled (s : Sys) (a : Act) : Prop :=
  a = .ca .setRetFlag → s.agent.handling = false ∧ s.node.caRun = false

instance (s : Sys) (a : Act) : Decidable (Settled s a) :=
  inferInstanceAs (Decidable (_ → _ ∧ _))

/-- The request in progress is still with the agent, about to be released, or released. -/
inductive InFlight (node : EventData) (agent : AgentPc) (request : Nat) : Prop where
  | offered (flag : node.retFlag = true) (mine : node.flagFor = request)
      (run : node.caRun = false) (idle : agent.handling = false)
  | working (flag : node.retFlag = true) (mine : node.flagFor = request)
      (run : node.caRun = false) (serves : agent = .working request)
  | responding (pc : RespondPc) (flag : node.retFlag = true) (mine : node.flagFor = request)
      (run : node.caRun = false) (serves : agent = .responding request pc)
      (early : pc ≠ .setCaRun)
  | releasing (flag : node.retFlag = false) (run : node.caRun = false)
      (serves : agent = .responding request .setCaRun)
  | released (flag : node.retFlag = false) (run : node.caRun = true)
      (answer : node.caRunBy = .agent request) (idle : agent.handling = false)

/-- What the CA's position says about the flags and the agent. -/
def CaKnows (node : EventData) (agent : AgentPc) (request : Nat) : CaPc → Prop
  | .outside | .entered | .checked => node.retFlag = false
  | .waiting | .timedOut => InFlight node agent request
  | .leaving ret releasedBy => node.retFlag = false ∧
      (ret = 0 → releasedBy = some (.agent request))

def Own (s : Sys) : Prop :=
  ∀ r ∈ s.returns, r.ret = 0 → r.crashed = false → r.releasedBy = some (.agent r.request)

/-- While the agent has not crashed, no thread stands in for it. -/
structure Alive (s : Sys) : Prop where
  reapers : ∀ i, s.reapers i = .outside
  up : s.agent ≠ .dead ∧ ∀ pc, s.agent ≠ .restarting pc
  ca : CaKnows s.node s.agent s.request s.ca

structure Inv (s : Sys) : Prop where
  log : Own s
  alive : s.crashed = false → Alive s

theorem init_inv : Inv {} := by
  constructor
  · simp [Own]
  · intro _
    refine ⟨fun _ => rfl, ⟨by simp, by simp⟩, rfl⟩

theorem Inv.answered {s : Sys} (inv : Inv s) : Answered s := by
  refine ⟨inv.log, ?_⟩
  intro k _ _ r member done calm other same
  rw [inv.log r member done calm] at same
  exact other (by simpa using same)

theorem Own.leave {s : Sys} (log : Own s) {ret : Int} {releasedBy : Option Responder}
    (own : s.crashed = false → ret = 0 → releasedBy = some (.agent s.request)) :
    Own (s.leave ret releasedBy) := by
  intro r member done calm
  simp only [Sys.leave, List.mem_append, List.mem_singleton] at member
  rcases member with old | rfl
  · exact log r old done calm
  · exact own calm done

/-- A request that is released is released by its own response. -/
theorem InFlight.answer {node : EventData} {agent : AgentPc} {request : Nat}
    (flight : InFlight node agent request) (run : node.caRun = true) :
    node.retFlag = false ∧ node.caRunBy = .agent request := by
  cases flight with
  | offered _ _ off _ | working _ _ off _ | responding _ _ _ off _ _ | releasing _ off _ =>
    simp [run] at off
  | released flag _ answer _ => exact ⟨flag, answer⟩

theorem agentProcessWork_inv {s s' : Sys} {a : CaAct} (inv : Inv s) (settled : Settled s (.ca a))
    (moved : agentProcessWork s a s.ca = some s') : Inv s' := by
  have known : s.crashed = false → CaKnows s.node s.agent s.request s.ca :=
    fun calm => (inv.alive calm).ca
  -- the CA does not move the agent or the threads that stand in for it
  have frame : ∀ {t : Sys}, Own t → t.reapers = s.reapers → t.agent = s.agent →
      t.crashed = s.crashed → (s.crashed = false → CaKnows t.node t.agent t.request t.ca) →
      Inv t := by
    intro t log reapers agent crashed ca
    refine ⟨log, fun calm => ?_⟩
    rw [crashed] at calm
    have alive := inv.alive calm
    exact ⟨by rw [reapers]; exact alive.reapers, by rw [agent]; exact alive.up, ca calm⟩
  cases here : s.ca with
  | outside =>
    rw [here] at moved known
    cases a with
    | call =>
      obtain rfl := Option.some.inj moved
      exact frame inv.log rfl rfl rfl known
    | _ => simp [agentProcessWork] at moved
  | entered =>
    rw [here] at moved known
    cases a with
    | checkReady =>
      simp only [agentProcessWork] at moved
      split at moved
      · obtain rfl := Option.some.inj moved
        refine frame (inv.log.leave ?_) rfl rfl rfl known
        intro _ done
        simp [eFault] at done
      · obtain rfl := Option.some.inj moved
        exact frame inv.log rfl rfl rfl known
    | _ => simp [agentProcessWork] at moved
  | checked =>
    rw [here] at moved
    cases a with
    | setRetFlag =>
      obtain rfl := Option.some.inj moved
      obtain ⟨idle, run⟩ := settled rfl
      exact frame inv.log rfl rfl rfl (fun _ => .offered rfl rfl run idle)
    | _ => simp [agentProcessWork] at moved
  | waiting =>
    rw [here] at moved known
    cases a with
    | wake =>
      simp only [agentProcessWork] at moved
      split at moved
      · rename_i run
        obtain rfl := Option.some.inj moved
        refine frame inv.log rfl rfl rfl ?_
        intro calm
        obtain ⟨flag, answer⟩ := (known calm).answer run
        exact ⟨flag, fun _ => congrArg some answer⟩
      · simp at moved
    | timeout sigkill =>
      simp only [agentProcessWork] at moved
      split at moved
      · simp at moved
      · split at moved
        · obtain rfl := Option.some.inj moved
          exact frame inv.log rfl rfl rfl known
        · obtain rfl := Option.some.inj moved
          exact inv
    | _ => simp [agentProcessWork] at moved
  | timedOut =>
    rw [here] at moved
    cases a with
    | clearRetFlag =>
      obtain rfl := Option.some.inj moved
      refine frame inv.log rfl rfl rfl ?_
      intro _
      exact ⟨rfl, fun done => by simp [eFault] at done⟩
    | _ => simp [agentProcessWork] at moved
  | leaving ret releasedBy =>
    rw [here] at moved known
    cases a with
    | clearCaRun =>
      obtain rfl := Option.some.inj moved
      refine frame ?_ rfl rfl rfl (fun calm => (known calm).1)
      have log : Own { s with node := { s.node with caRun := false } } := inv.log
      exact log.leave (fun calm => (known calm).2)
    | _ => simp [agentProcessWork] at moved

/-- A step of the agent leaves the CA's knowledge intact when it does not raise `ret_flag`
and carries the request in progress along. -/
theorem CaKnows.move {node node' : EventData} {agent agent' : AgentPc} {request : Nat}
    {ca : CaPc} (known : CaKnows node agent request ca)
    (flag : node.retFlag = false → node'.retFlag = false)
    (flight : InFlight node agent request → InFlight node' agent' request) :
    CaKnows node' agent' request ca := by
  cases ca with
  | outside | entered | checked => exact flag known
  | waiting | timedOut => exact flight known
  | leaving => exact ⟨flag known.1, known.2⟩

section Flight

variable {node : EventData} {request serving : Nat}

theorem InFlight.waitEvent (flight : InFlight node .outside request) :
    InFlight { node with agentReady := .ready } .waiting request := by
  cases flight with
  | offered flag mine run _ => exact .offered flag mine run rfl
  | released flag run answer _ => exact .released flag run answer rfl
  | working _ _ _ serves | responding _ _ _ _ serves _ | releasing _ _ serves => cases serves

theorem InFlight.wake (flight : InFlight node .waiting request) (offer : node.retFlag = true) :
    InFlight node (.working node.flagFor) request := by
  cases flight with
  | offered flag mine run _ => exact .working flag mine run (by rw [mine])
  | released flag _ _ _ => simp [offer] at flag
  | working _ _ _ serves | responding _ _ _ _ serves _ | releasing _ _ serves => cases serves

theorem InFlight.interrupt (flight : InFlight node .waiting request) :
    InFlight node .outside request := by
  cases flight with
  | offered flag mine run _ => exact .offered flag mine run rfl
  | released flag run answer _ => exact .released flag run answer rfl
  | working _ _ _ serves | responding _ _ _ _ serves _ | releasing _ _ serves => cases serves

theorem InFlight.sendResponse (flight : InFlight node (.working serving) request) :
    InFlight node (.responding serving .testRetFlag) request := by
  cases flight with
  | working flag mine run serves =>
    cases serves
    exact .responding .testRetFlag flag mine run rfl (by simp)
  | offered _ _ _ idle | released _ _ _ idle => simp [AgentPc.handling] at idle
  | responding _ _ _ _ serves _ | releasing _ _ serves => cases serves

theorem InFlight.testRetFlag
    (flight : InFlight node (.responding serving .testRetFlag) request) :
    node.retFlag = true ∧ InFlight node (.responding serving .clearRetFlag) request := by
  cases flight with
  | responding _ flag mine run serves _ =>
    cases serves
    exact ⟨flag, .responding .clearRetFlag flag mine run rfl (by simp)⟩
  | offered _ _ _ idle | released _ _ _ idle => simp [AgentPc.handling] at idle
  | working _ _ _ serves | releasing _ _ serves => cases serves

theorem InFlight.clearRetFlag
    (flight : InFlight node (.responding serving .clearRetFlag) request) :
    InFlight { node with retFlag := false } (.responding serving .setCaRun) request := by
  cases flight with
  | responding _ _ _ run serves _ =>
    cases serves
    exact .releasing rfl run rfl
  | offered _ _ _ idle | released _ _ _ idle => simp [AgentPc.handling] at idle
  | working _ _ _ serves | releasing _ _ serves => cases serves

theorem InFlight.setCaRun (flight : InFlight node (.responding serving .setCaRun) request) :
    InFlight { node with caRun := true, caRunBy := .agent serving } .outside request := by
  cases flight with
  | releasing flag _ serves =>
    cases serves
    exact .released flag rfl rfl rfl
  | responding _ _ _ _ serves early =>
    cases serves
    exact absurd rfl early
  | offered _ _ _ idle | released _ _ _ idle => simp [AgentPc.handling] at idle
  | working _ _ _ serves => cases serves

end Flight

theorem agentStep_inv {s s' : Sys} {a : AgentAct} (inv : Inv s)
    (moved : agentStep s a s.agent = some s') : Inv s' := by
  -- the agent goes on, and what the CA knows moves along
  have carry : ∀ {pc agent : AgentPc} {node : EventData}, s.agent = pc → agent ≠ .dead →
      (∀ pc, agent ≠ .restarting pc) → (s.node.retFlag = false → node.retFlag = false) →
      (InFlight s.node pc s.request → InFlight node agent s.request) →
      Inv { s with node := node, agent := agent } := by
    intro pc agent node here up running flag flight
    refine ⟨inv.log, fun calm => ⟨(inv.alive calm).reapers, ⟨up, running⟩, ?_⟩⟩
    have known : CaKnows s.node s.agent s.request s.ca := (inv.alive calm).ca
    rw [here] at known
    exact known.move flag flight
  cases here : s.agent with
  | outside =>
    rw [here] at moved
    cases a with
    | waitEvent =>
      obtain rfl := Option.some.inj moved
      exact carry here (by simp) (by simp) id InFlight.waitEvent
    | crash i =>
      simp only [agentStep] at moved
      split at moved
      · obtain rfl := Option.some.inj moved
        exact ⟨inv.log, fun calm => by simp at calm⟩
      · simp at moved
    | _ => simp [agentStep] at moved
  | waiting =>
    rw [here] at moved
    cases a with
    | wake =>
      simp only [agentStep] at moved
      split at moved
      · rename_i offer
        obtain rfl := Option.some.inj moved
        exact carry here (by simp) (by simp) id (fun flight => flight.wake offer)
      · simp at moved
    | interrupt =>
      simp only [agentStep] at moved
      split at moved
      · simp at moved
      · obtain rfl := Option.some.inj moved
        exact carry here (by simp) (by simp) id InFlight.interrupt
    | _ => simp [agentStep] at moved
  | working serving =>
    rw [here] at moved
    cases a with
    | sendResponse =>
      obtain rfl := Option.some.inj moved
      exact carry here (by simp) (by simp) id InFlight.sendResponse
    | crash i =>
      simp only [agentStep] at moved
      split at moved
      · obtain rfl := Option.some.inj moved
        exact ⟨inv.log, fun calm => by simp at calm⟩
      · simp at moved
    | _ => simp [agentStep] at moved
  | responding serving pc =>
    rw [here] at moved
    cases a with
    | respond =>
      cases pc with
      | testRetFlag =>
        cases offer : s.node.retFlag with
        | true =>
          simp only [agentStep, processSendEventResponse, offer] at moved
          obtain rfl := Option.some.inj moved
          exact carry here (by simp) (by simp) id (fun flight => flight.testRetFlag.2)
        | false =>
          simp only [agentStep, processSendEventResponse, offer] at moved
          obtain rfl := Option.some.inj moved
          refine carry here (by simp) (by simp) id (fun flight => ?_)
          have set := flight.testRetFlag.1
          rw [offer] at set
          cases set
      | clearRetFlag =>
        obtain rfl := Option.some.inj moved
        exact carry here (by simp) (by simp) (fun _ => rfl) InFlight.clearRetFlag
      | setCaRun =>
        obtain rfl := Option.some.inj moved
        exact carry here (by simp) (by simp) id InFlight.setCaRun
    | _ => simp [agentStep] at moved
  | dead =>
    have crashed : s.crashed ≠ false := fun calm => (inv.alive calm).up.1 here
    rw [here] at moved
    cases a with
    | reuseNode =>
      simp only [agentStep] at moved
      split at moved
      · obtain rfl := Option.some.inj moved
        exact ⟨inv.log, fun calm => absurd calm crashed⟩
      · obtain rfl := Option.some.inj moved
        exact inv
    | _ => simp [agentStep] at moved
  | restarting pc =>
    have crashed : s.crashed ≠ false := fun calm => (inv.alive calm).up.2 pc here
    rw [here] at moved
    cases a with
    | restart =>
      simp only [agentStep] at moved
      obtain rfl := Option.some.inj moved
      exact ⟨inv.log, fun calm => absurd calm crashed⟩
    | _ => simp [agentStep] at moved

theorem sendEventResponse_inv {s s' : Sys} {i : Nat} (inv : Inv s)
    (moved : sendEventResponse s i (s.reapers i) = some s') : Inv s' := by
  have crashed : s.crashed ≠ false := by
    intro calm
    rw [(inv.alive calm).reapers i] at moved
    simp [sendEventResponse] at moved
  cases here : s.reapers i with
  | outside => simp [here, sendEventResponse] at moved
  | setCrashed | responding =>
    rw [here] at moved
    obtain rfl := Option.some.inj moved
    exact ⟨inv.log, fun calm => absurd calm crashed⟩

theorem step_inv {s s' : Sys} {a : Act} (inv : Inv s) (settled : Settled s a)
    (moved : step s a = some s') : Inv s' := by
  cases a with
  | ca a => exact agentProcessWork_inv inv settled moved
  | agent a => exact agentStep_inv inv moved
  | reaper i => exact sendEventResponse_inv inv moved

/-- In a run in which every request is offered to a settled agent, every response answers
the request it was given for. -/
theorem responses_answer {s : Sys} (run : Reach step Settled {} s) : Answered s := by
  have inv : Inv s := run.invariant init_inv
    (fun s a s' inv settled moved => step_inv inv settled moved)
  exact inv.answered

/-- The CA of request 1 is killed before the agent wakes up, and request 2 is answered. -/
theorem responses_answer_early_kill :
    ∃ s, Reach step Settled {} s ∧
      s.returns = [⟨1, eFault, none, false⟩, ⟨2, 0, some (.agent 2), false⟩] ∧ Answered s := by
  obtain ⟨s, run, test⟩ := reach_of_play step Settled
    (fun s => s.returns == [⟨1, eFault, none, false⟩, ⟨2, 0, some (.agent 2), false⟩]) {}
    [.ca .call, .ca .checkReady, .ca .setRetFlag, .ca (.timeout true), .ca .clearRetFlag,
      .ca .clearCaRun, .agent .waitEvent, .ca .call, .ca .checkReady, .ca .setRetFlag,
      .agent .wake, .agent .sendResponse, .agent .respond, .agent .respond, .agent .respond,
      .ca .wake, .ca .clearCaRun] (by decide +kernel)
  exact ⟨s, run, by simpa using test, responses_answer run⟩

/-- The CA of request 1 is killed while the agent works on it. The agent's response then
finds the `ret_flag` of request 2 and releases the CA of request 2. -/
theorem late_response_releases_next :
    ∃ s, Reach step (fun _ _ => True) {} s ∧
      s.returns = [⟨1, eFault, none, false⟩, ⟨2, 0, some (.agent 1), false⟩] ∧
      ¬ Answered s := by
  obtain ⟨s, run, test⟩ := reach_of_play step (fun _ _ => True)
    (fun s => s.returns == [⟨1, eFault, none, false⟩, ⟨2, 0, some (.agent 1), false⟩]) {}
    [.agent .waitEvent, .ca .call, .ca .checkReady, .ca .setRetFlag, .agent .wake,
      .ca (.timeout true), .ca .clearRetFlag, .ca .clearCaRun, .ca .call, .ca .checkReady,
      .ca .setRetFlag, .agent .sendResponse, .agent .respond, .agent .respond,
      .agent .respond, .ca .wake, .ca .clearCaRun] (by decide +kernel)
  have returns : s.returns = [⟨1, eFault, none, false⟩, ⟨2, 0, some (.agent 1), false⟩] := by
    simpa using test
  refine ⟨s, run, returns, ?_⟩
  intro answered
  have own := answered.own ⟨2, 0, some (.agent 1), false⟩ (by simp [returns]) rfl rfl
  simp at own

end AgentHandshake
