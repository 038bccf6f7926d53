import Mathlib.Logic.Function.Basic
import Tzdriver.ActionSystem

/-!
# The hand-shake between a CA and an agent

`core/agent.c`: one registered agent. A CA whose command needs the agent sets `ret_flag`
in `agent_process_work` and sleeps until `ca_run` is set. The agent process calls
`tc_ns_wait_event`, works, and calls `tc_ns_send_event_response`. When the agent process
dies, the thread that closes its file calls `send_event_response` in its place, and the
process that registers the agent again resets the node in `init_restart_agent_node`.

None of these functions holds a lock while it uses the two flags, so every read and every
write of a flag is a step of its own. Sleeping again after a timeout or an interruption
changes nothing. The TEE issues a request for the agent only when the CA of the request
before has returned to it, so that one position describes all CAs.

The driver has no identity for a request. `request`, `flagFor`, `caRunBy`, `serving`,
`crashed` and `returns` are bookkeeping that says which request a flag was set for and
which response set `ca_run`.
-/

namespace AgentHandshake

open Function

def eFault : Int := -14

inductive Ready where
  | registered
  | ready
  | crashed
  deriving DecidableEq, Repr

/-- Who ran `process_send_event_response`: the agent, after `tc_ns_wait_event` had
returned for `request`, or the thread that closes the file of a dead agent. -/
inductive Responder where
  | agent (request : Nat)
  | reaper
  deriving DecidableEq, Repr

/-- The fields of `smc_event_data` that the hand-shake uses. -/
structure EventData where
  agentReady : Ready := .registered
  retFlag : Bool := false
  caRun : Bool := false
  flagFor : Nat := 0
  caRunBy : Responder := .reaper
  deriving DecidableEq, Repr

/-- The position of the CA in `agent_process_work` and `wait_agent_response`. -/
inductive CaPc where
  | outside
  | entered
  | checked
  | waiting
  | timedOut
  | leaving (ret : Int) (releasedBy : Option Responder)
  deriving DecidableEq, Repr

/-- The position in `process_send_event_response`. -/
inductive RespondPc where
  | testRetFlag
  | clearRetFlag
  | setCaRun
  deriving DecidableEq, Repr

/-- The position in `init_restart_agent_node`. -/
inductive RestartPc where
  | clearRetFlag
  | setRegistered
  | clearCaRun
  deriving DecidableEq, Repr

inductive AgentPc where
  | outside
  | waiting
  | working (serving : Nat)
  | responding (serving : Nat) (pc : RespondPc)
  | dead
  | restarting (pc : RestartPc)
  deriving DecidableEq, Repr

/-- The position in `send_event_response`. -/
inductive ReaperPc where
  | outside
  | setCrashed
  | responding (pc : RespondPc)
  deriving DecidableEq, Repr

structure Return where
  request : Nat
  ret : Int
  releasedBy : Option Responder
  crashed : Bool
  deriving DecidableEq, Repr

structure Sys where
  node : EventData := {}
  ca : CaPc := .outside
  agent : AgentPc := .outside
  reapers : Nat → ReaperPc := fun _ => .outside
  request : Nat := 0
  crashed : Bool := false
  returns : List Return := []

inductive CaAct where
  | call
  | checkReady
  | setRetFlag
  | wake
  | timeout (sigkill : Bool)
  | clearRetFlag
  | clearCaRun
  deriving DecidableEq, Repr

inductive AgentAct where
  | waitEvent
  | wake
  | interrupt
  | sendResponse
  | respond
  | crash (reaper : Nat)
  | reuseNode
  | restart
  deriving DecidableEq, Repr

inductive Act where
  | ca (a : CaAct)
  | agent (a : AgentAct)
  | reaper (i : Nat)
  deriving DecidableEq, Repr

def Sys.leave (s : Sys) (ret : Int) (releasedBy : Option Responder) : Sys :=
  { s with
    ca := .outside
    returns := s.returns ++ [⟨s.request, ret, releasedBy, s.crashed⟩] }

/-- One step of `agent_process_work`. -/
def agentProcessWork (s : Sys) : CaAct → CaPc → Option Sys
  | .call, .outside => some { s with ca := .entered, request := s.request + 1 }
  | .checkReady, .entered =>
    if s.node.agentReady = .crashed then some (s.leave eFault none)
    else some { s with ca := .checked }
  | .setRetFlag, .checked =>
    some { s with ca := .waiting, node := { s.node with retFlag := true, flagFor := s.request } }
  | .wake, .waiting =>
    if s.node.caRun then some { s with ca := .leaving 0 (some s.node.caRunBy) } else none
  | .timeout sigkill, .waiting =>
    if s.node.caRun then none
    -- without a kill signal the CA sleeps again
    else if sigkill then some { s with ca := .timedOut }
    else some s
  | .clearRetFlag, .timedOut =>
    some { s with ca := .leaving eFault none, node := { s.node with retFlag := false } }
  | .clearCaRun, .leaving ret releasedBy =>
    some ({ s with node := { s.node with caRun := false } }.leave ret releasedBy)
  | _, _ => none

/-- One step of `process_send_event_response`; `none` when it returns. -/
def processSendEventResponse (node : EventData) (responder : Responder) :
    RespondPc → EventData × Option RespondPc
  | .testRetFlag => (node, if node.retFlag then some .clearRetFlag else none)
  | .clearRetFlag => ({ node with retFlag := false }, some .setCaRun)
  | .setCaRun => ({ node with caRun := true, caRunBy := responder }, none)

/-- One step of `init_restart_agent_node`. -/
def initRestartAgentNode (node : EventData) : RestartPc → EventData × Option RestartPc
  | .clearRetFlag => ({ node with retFlag := false }, some .setRegistered)
  | .setRegistered => ({ node with agentReady := .registered }, some .clearCaRun)
  | .clearCaRun => ({ node with caRun := false }, none)

/-- One step of the agent process, which calls `tc_ns_wait_event` and
`tc_ns_send_event_response` in turn. It can die outside these calls only. -/
def agentStep (s : Sys) : AgentAct → AgentPc → Option Sys
  | .waitEvent, .outside =>
    some { s with agent := .waiting, node := { s.node with agentReady := .ready } }
  | .wake, .waiting =>
    if s.node.retFlag then some { s with agent := .working s.node.flagFor } else none
  | .interrupt, .waiting =>
    if s.node.retFlag then none else some { s with agent := .outside }
  | .sendResponse, .working serving =>
    some { s with agent := .responding serving .testRetFlag }
  | .respond, .responding serving pc =>
    let (node, next) := processSendEventResponse s.node (.agent serving) pc
    some { s with
      node := node
      agent := match next with
        | some pc => .responding serving pc
        | none => .outside }
  | .crash i, .outside | .crash i, .working _ =>
    if s.reapers i = .outside then
      some { s with agent := .dead, reapers := update s.reapers i .setCrashed, crashed := true }
    else none
  | .reuseNode, .dead =>
    if s.node.agentReady = .crashed then some { s with agent := .restarting .clearRetFlag }
    else some s
  | .restart, .restarting pc =>
    let (node, next) := initRestartAgentNode s.node pc
    some { s with
      node := node
      agent := match next with
        | some pc => .restarting pc
        | none => .outside }
  | _, _ => none

/-- One step of `send_event_response` in the thread that closes the file. -/
def sendEventResponse (s : Sys) (i : Nat) : ReaperPc → Option Sys
  | .outside => none
  | .setCrashed =>
    some { s with
      node := { s.node with agentReady := .crashed }
      reapers := update s.reapers i (.responding .testRetFlag) }
  | .responding pc =>
    let (node, next) := processSendEventResponse s.node .reaper pc
    some { s with
      node := node
      reapers := update s.reapers i (match next with
        | some pc => .responding pc
        | none => .outside) }

def step (s : Sys) : Act → Option Sys
  | .ca a => agentProcessWork s a s.ca
  | .agent a => agentStep s a s.agent
  | .reaper i => sendEventResponse s i (s.reapers i)

end AgentHandshake
