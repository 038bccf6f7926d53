import Tzdriver.TeeSessions

/-!
# The driver and the TEE agree on the open sessions

What each step does to the driver's sessions and to those of the TEE, and that the two sets
stay the same along every run of safe calls. Only the two calls at the TEE change either set.
-/

namespace TeeSessions

open Function ActionSystem ClientCall TeecToken
open SessionManager (Heap Held Inv ServicePtr SessionPtr SameSessions mem_initNewSessNode)

variable {Dev Tid : Type*}

/-- No two sessions of the lists have one key. -/
def Distinct (m : Heap Dev Nat Tid) : Prop :=
  ∀ v w, ∀ e ∈ m.sessionList v, ∀ f ∈ m.sessionList w, m.owner e = m.owner f →
    m.uuid v = m.uuid w → m.sessionId e = m.sessionId f → e = f

structure Good (s : Sys Dev Tid) : Prop where
  inv : Inv s.tables.heap s.tables.held
  steady : ∀ d, s.tables.heap.closing d = none
  agree : Agree s
  distinct : Distinct s.tables.heap

section Lists

variable {m m' : Heap Dev Nat Tid} {h : Tid → Held Dev Nat} {t : Tid} {d : Dev} {v : ServicePtr}
  {e : SessionPtr} {k : Key Dev} {u id : Nat}

theorem listed_same (same : SameSessions m m') : Listed m' k ↔ Listed m k := by
  have keyed : ∀ v e, e ∈ m.sessionList v →
      ((m'.owner e = some k.1 ∧ m'.uuid v = some k.2.1 ∧ m'.sessionId e = k.2.2) ↔
        (m.owner e = some k.1 ∧ m.uuid v = some k.2.1 ∧ m.sessionId e = k.2.2)) := by
    intro v e listed
    rw [same.owner v e listed, same.uuid v e listed, same.sessionId v e listed]
  unfold Listed
  rw [same.lists]
  constructor
  · rintro ⟨v, e, listed, key⟩
    exact ⟨v, e, listed, (keyed v e listed).1 key⟩
  · rintro ⟨v, e, listed, key⟩
    exact ⟨v, e, listed, (keyed v e listed).2 key⟩

theorem Distinct.same (distinct : Distinct m) (same : SameSessions m m') : Distinct m' := by
  intro v w e he f hf
  rw [same.lists] at he hf
  rw [same.owner v e he, same.owner w f hf, same.uuid v e he, same.uuid w f hf,
    same.sessionId v e he, same.sessionId w f hf]
  exact distinct v w e he f hf

/-- A session that a call has not published yet is on no list. -/
theorem listed_publish (fresh : ∀ w, e ∉ m.sessionList w) (uuid : m.uuid v = some u) :
    Listed (m.initNewSessNode d v e id) k ↔ Listed m k ∨ k = (d, u, id) := by
  have other : ∀ w f, f ∈ m.sessionList w → f ≠ e := by
    rintro w f listed rfl
    exact fresh w listed
  constructor
  · rintro ⟨w, f, listed, owner, uuid', sessionId⟩
    rcases mem_initNewSessNode.1 listed with old | ⟨rfl, rfl⟩
    · refine Or.inl ⟨w, f, old, ?_, uuid', ?_⟩
      · simpa [Heap.initNewSessNode, other w f old] using owner
      · simpa [Heap.initNewSessNode, other w f old] using sessionId
    · obtain ⟨c, u', id'⟩ := k
      simp only [Heap.initNewSessNode, update_self, Option.some.injEq] at owner uuid' sessionId
      obtain rfl := Option.some.inj (uuid.symm.trans uuid')
      exact Or.inr (by rw [owner, sessionId])
  · rintro (⟨w, f, listed, owner, uuid', sessionId⟩ | rfl)
    · refine ⟨w, f, mem_initNewSessNode.2 (Or.inl listed), ?_, uuid', ?_⟩
      · simpa [Heap.initNewSessNode, other w f listed] using owner
      · simpa [Heap.initNewSessNode, other w f listed] using sessionId
    · exact ⟨v, e, mem_initNewSessNode.2 (Or.inr ⟨rfl, rfl⟩), by simp [Heap.initNewSessNode], uuid,
        by simp [Heap.initNewSessNode]⟩

theorem Distinct.publish (distinct : Distinct m) (fresh : ∀ w, e ∉ m.sessionList w)
    (uuid : m.uuid v = some u) (new : ¬ Listed m (d, u, id)) :
    Distinct (m.initNewSessNode d v e id) := by
  have other : ∀ w f, f ∈ m.sessionList w → f ≠ e := by
    rintro w f listed rfl
    exact fresh w listed
  -- an old session with the key of the new one would be listed under it
  have clash : ∀ w f, f ∈ m.sessionList w → m.owner f = some d → m.uuid w = m.uuid v →
      m.sessionId f = id → False := by
    intro w f listed owner uuid' sessionId
    exact new ⟨w, f, listed, owner, uuid'.trans uuid, sessionId⟩
  intro w z f hf g hg
  rcases mem_initNewSessNode.1 hf with oldF | ⟨rfl, rfl⟩
  · rcases mem_initNewSessNode.1 hg with oldG | ⟨rfl, rfl⟩
    · simpa [Heap.initNewSessNode, other w f oldF, other z g oldG] using
        distinct w z f oldF g oldG
    · intro owner uuid' sessionId
      simp only [Heap.initNewSessNode, update_self, update_of_ne (other w f oldF)] at owner sessionId
      exact False.elim (clash w f oldF owner uuid' sessionId)
  · rcases mem_initNewSessNode.1 hg with oldG | ⟨rfl, rfl⟩
    · intro owner uuid' sessionId
      simp only [Heap.initNewSessNode, update_self, update_of_ne (other z g oldG)] at owner sessionId
      exact False.elim (clash z g oldG owner.symm uuid'.symm sessionId.symm)
    · exact fun _ _ _ => rfl

theorem listed_listDel (inv : Inv m h) (distinct : Distinct m) (listed : e ∈ m.sessionList v)
    (owner : m.owner e = some d) (uuid : m.uuid v = some u) :
    Listed (m.listDel v e) k ↔ Listed m k ∧ k ≠ (d, u, m.sessionId e) := by
  constructor
  · rintro ⟨w, f, kept, owner', uuid', sessionId⟩
    obtain ⟨old, apart⟩ := inv.mem_listDel.1 kept
    refine ⟨⟨w, f, old, owner', uuid', sessionId⟩, ?_⟩
    rintro rfl
    obtain rfl := distinct w v f old e listed (owner'.trans owner.symm)
      (uuid'.trans uuid.symm) sessionId
    exact apart ⟨inv.apart w v f old listed, rfl⟩
  · rintro ⟨⟨w, f, old, owner', uuid', sessionId⟩, apart⟩
    refine ⟨w, f, inv.mem_listDel.2 ⟨old, ?_⟩, owner', uuid', sessionId⟩
    rintro ⟨rfl, rfl⟩
    have hd := Option.some.inj (owner'.symm.trans owner)
    have hu := Option.some.inj (uuid'.symm.trans uuid)
    exact apart (by rw [sessionId, ← hd, ← hu])

theorem Distinct.listDel (inv : Inv m h) (distinct : Distinct m) : Distinct (m.listDel v e) := by
  intro w z f hf g hg
  exact distinct w z f (inv.mem_listDel.1 hf).1 g (inv.mem_listDel.1 hg).1

end Lists

section Calls

variable {dev : ClientCall.Dev} {context : Context} {env : CallEnv} {tokens : TokenState}
  {res : CallResult} {trace : List Event} {ready : Bool}

theorem mem_opened {id : Nat} : id ∈ trace.filterMap openedId ↔
    ∃ y : Round, y.event ∈ trace ∧ y.reply.ret = 0 ∧ y.reply.contextId = id := by
  rw [List.mem_filterMap]
  constructor
  · rintro ⟨event, mem, opened⟩
    cases event with
    | smc ret processed cmdId contextId =>
      refine ⟨⟨none, ⟨ret, processed, cmdId, contextId, 0, zeroToken, fun _ => 0⟩, none, true⟩,
        mem, ?_⟩
      simp only [openedId] at opened
      split at opened
      · rename_i granted
        exact ⟨granted, Option.some.inj opened⟩
      · cases opened
    | _ => cases opened
  · rintro ⟨y, mem, granted, rfl⟩
    exact ⟨y.event, mem, by simp [openedId, Round.event, granted]⟩

theorem any_closesSession : trace.any closesSession = true ↔
    ∃ y : Round, y.event ∈ trace ∧ y.reply.processed = true ∧ y.reply.ret ≠ teecPending := by
  rw [List.any_eq_true]
  constructor
  · rintro ⟨event, mem, closes⟩
    cases event with
    | smc ret processed cmdId contextId =>
      refine ⟨⟨none, ⟨ret, processed, cmdId, contextId, 0, zeroToken, fun _ => 0⟩, none, true⟩,
        mem, ?_⟩
      simpa [closesSession] using closes
    | _ => cases closes
  · rintro ⟨y, mem, processed, final⟩
    exact ⟨y.event, mem, by simp [closesSession, Round.event, processed, final]⟩

theorem Opens.unique {p : CallParams} {x y : Round} (hx : Opens ready p env x)
    (hy : Opens ready p env y) : x = y := by
  refine hx.sent.unique hy.sent ?_ ?_
  · rw [hx.granted]
    decide
  · rw [hy.granted]
    decide

/-- The open was granted and the driver got through the rest of the call. -/
def Accepted (ready : Bool) (p : CallParams) (env : CallEnv) : Prop :=
  ∃ z, Opens ready p env z ∧ PostOk p true z ∧ OutputsOk p env z

/-- The outcome of an open: what the TEE has opened, and when the driver learns of it. -/
theorem openCall_outcome
    (returned : tcClientCall (openParams dev context) env freshTokens = some res) :
    (∀ id, id ∈ res.op.trace.filterMap openedId ↔
      ∃ z, Opens true (openParams dev context) env z ∧ z.reply.contextId = id) ∧
    (res.ret = 0 ↔ Accepted true (openParams dev context) env) ∧
    (res.ret = 0 → res.op.sessionId = env.first.reply.contextId) := by
  obtain ⟨unsent, sent⟩ := tcClientCall_outcome rfl returned
  have reaches_iff : Submits (openParams dev context) env freshTokens ↔
      Reaches (openParams dev context) env true := submits_iff rfl
  by_cases reaches : Reaches (openParams dev context) env true
  · obtain ⟨events, ret, sessionId⟩ := sent (reaches_iff.2 reaches)
    refine ⟨fun id => ?_, ret.trans ?_, sessionId⟩
    · rw [mem_opened]
      constructor
      · rintro ⟨y, mem, granted, rfl⟩
        obtain ⟨z, hz, same⟩ := (events y).1 mem
        obtain ⟨sameRet, -, -, sameId⟩ := Event.smc.inj same
        exact ⟨z, ⟨rfl, reaches, hz, sameRet ▸ granted⟩, sameId.symm⟩
      · rintro ⟨z, opens, rfl⟩
        exact ⟨z, (events z).2 ⟨z, opens.sent, rfl⟩, opens.granted, rfl⟩
    · constructor
      · rintro ⟨z, hz, granted, posted, copied⟩
        exact ⟨z, ⟨rfl, reaches, hz, granted⟩, posted, copied⟩
      · rintro ⟨z, opens, posted, copied⟩
        exact ⟨z, opens.sent, opens.granted, posted, copied⟩
  · obtain ⟨failed, quiet⟩ := unsent (fun submits => reaches (reaches_iff.1 submits))
    refine ⟨fun id => ?_, ?_, fun ok => absurd ok failed⟩
    · rw [mem_opened]
      constructor
      · rintro ⟨y, mem, -⟩
        exact absurd mem (quiet y)
      · rintro ⟨z, opens, -⟩
        exact absurd opens.reaches reaches
    · constructor
      · exact fun ok => absurd ok failed
      · rintro ⟨z, opens, -⟩
        exact absurd opens.reaches reaches

/-- A close needs a command record and a pack only. -/
theorem closeParams_submits {u id : Nat} : Submits (closeParams dev u id) env tokens ↔
    env.smcCmdAlloc = true ∧ env.mbPack.isSome = true := by
  rw [submits_iff rfl]
  constructor
  · intro reaches
    exact ⟨reaches.record, reaches.pack⟩
  · rintro ⟨record, pack⟩
    have other : globalCmdIdCloseSession ≠ globalCmdIdOpenSession := by decide
    refine ⟨record, pack, fun used => absurd rfl used, ?_, fun open_ => absurd open_ other⟩
    simp [checkLoginForEncrypt, closeParams, other]

theorem closeCall_outcome {u id : Nat}
    (returned : tcClientCall (closeParams dev u id) env tokens = some res) :
    res.op.trace.any closesSession = true ↔
      env.smcCmdAlloc = true ∧ env.mbPack.isSome = true ∧
        ∃ z, Sent (closeParams dev u id) tokens.session.isSome env.first env.more z ∧
          z.reply.processed = true ∧ z.reply.ret ≠ teecPending := by
  obtain ⟨unsent, sent⟩ := tcClientCall_outcome rfl returned
  have reached : Submits (closeParams dev u id) env tokens ↔
      env.smcCmdAlloc = true ∧ env.mbPack.isSome = true := closeParams_submits
  rw [any_closesSession, ← and_assoc, ← reached]
  by_cases submits : Submits (closeParams dev u id) env tokens
  · obtain ⟨events, -, -⟩ := sent submits
    constructor
    · rintro ⟨y, mem, processed, final⟩
      obtain ⟨z, hz, same⟩ := (events y).1 mem
      obtain ⟨sameRet, sameProcessed, -, -⟩ := Event.smc.inj same
      exact ⟨submits, z, hz, sameProcessed ▸ processed, sameRet ▸ final⟩
    · rintro ⟨-, z, hz, processed, final⟩
      exact ⟨z, (events z).2 ⟨z, hz, rfl⟩, processed, final⟩
  · constructor
    · rintro ⟨y, mem, -⟩
      exact absurd mem ((unsent submits).2 y)
    · rintro ⟨reached, -⟩
      exact absurd reached submits

end Calls

section Steps

variable [DecidableEq Dev] [DecidableEq Tid] {s s' : Sys Dev Tid} {a : Act Dev Tid} {t : Tid}
  {d : Dev} {v : ServicePtr} {e : SessionPtr} {k : Key Dev}

/-- What a step of an open at the TEE does to both parties. -/
theorem procOpenSession_spec {ready : Bool} {dev : ClientCall.Dev} {context : Context}
    {env : CallEnv} (moved : procOpenSession s t d ready dev context env = some s') :
    ∃ opened, SessionManager.step s.tables (.run t { opened := opened }) = some s'.tables ∧
      (∀ k, k ∈ s'.tee ↔ k ∈ s.tee ∨ ∃ z, Opens ready (openParams dev context) env z ∧
        k = (d, context.uuid, z.reply.contextId)) ∧
      (Accepted ready (openParams dev context) env → opened = some env.first.reply.contextId) ∧
      (¬ Accepted ready (openParams dev context) env → opened = none) := by
  unfold procOpenSession at moved
  split at moved
  · rename_i notReady
    obtain ⟨tables, ran, rfl⟩ := Option.map_eq_some_iff.1 moved
    have closed : ∀ z, ¬ Opens ready (openParams dev context) env z := by
      intro z opens
      simp [opens.ready] at notReady
    refine ⟨none, ran, fun k => ?_, ?_, fun _ => rfl⟩
    · simp [closed]
    · rintro ⟨z, opens, -⟩
      exact absurd opens (closed z)
  · rename_i isReady
    rw [Bool.not_eq_false] at isReady
    subst isReady
    split at moved
    · cases moved
    · rename_i res returned
      obtain ⟨tables, ran, rfl⟩ := Option.map_eq_some_iff.1 moved
      obtain ⟨events, ret, sessionId⟩ := openCall_outcome returned
      refine ⟨_, ran, fun k => ?_, fun accepted => ?_, fun refused => ?_⟩
      · simp only [List.mem_append, List.mem_map, events]
        constructor
        · rintro (old | ⟨id, ⟨z, opens, rfl⟩, rfl⟩)
          · exact Or.inl old
          · exact Or.inr ⟨z, opens, rfl⟩
        · rintro (old | ⟨z, opens, rfl⟩)
          · exact Or.inl old
          · exact Or.inr ⟨_, ⟨z, opens, rfl⟩, rfl⟩
      · have ok := ret.2 accepted
        rw [if_pos ok, sessionId ok]
      · exact if_neg fun ok => refused (ret.1 ok)

theorem openCall_tables (inv : Inv s.tables.heap s.tables.held)
    (at_ : s.tables.threads t = .openCall d v e) {opened : Option Nat}
    {tables : SessionManager.Sys Dev Nat Tid}
    (ran : SessionManager.step s.tables (.run t { opened := opened }) = some tables) :
    (∀ id, opened = some id → tables.heap = s.tables.heap.initNewSessNode d v e id) ∧
      (opened = none → tables.heap = s.tables.heap.setOperationLock v none) := by
  simp only [SessionManager.step] at ran
  rw [inv.bad_false rfl, if_neg Bool.false_ne_true] at ran
  obtain ⟨next, went, rfl⟩ := Option.map_eq_some_iff.1 ran
  rw [at_] at went
  constructor
  · rintro id rfl
    simp only [SessionManager.run] at went
    obtain rfl := Option.some.inj went
    rfl
  · rintro rfl
    simp only [SessionManager.run] at went
    obtain rfl := Option.some.inj went
    rfl

theorem closeCall_tables (inv : Inv s.tables.heap s.tables.held)
    (at_ : s.tables.threads t = .closeCall d v e) {env : SessionManager.Env}
    {tables : SessionManager.Sys Dev Nat Tid}
    (ran : SessionManager.step s.tables (.run t env) = some tables) :
    tables.heap = s.tables.heap.listDel v e := by
  simp only [SessionManager.step] at ran
  rw [inv.bad_false rfl, if_neg Bool.false_ne_true] at ran
  obtain ⟨next, went, rfl⟩ := Option.map_eq_some_iff.1 ran
  rw [at_] at went
  simp only [SessionManager.run] at went
  obtain rfl := Option.some.inj went
  rfl

/-- A step of the tables that is taken in the combined system. -/
theorem table_step {b : SessionManager.Act Dev Nat Tid} (moved : step s (.table b) = some s') :
    barred s.tables b = false ∧ SessionManager.step s.tables b = some s'.tables ∧
      s'.tee = s.tee := by
  simp only [step] at moved
  split at moved
  · cases moved
  · rename_i free
    obtain ⟨tables, ran, rfl⟩ := Option.map_eq_some_iff.1 moved
    exact ⟨by simpa using free, ran, rfl⟩

/-- Every step is one of the tables. -/
theorem step_tables (moved : step s a = some s') :
    ∃ b, (∀ t d, b ≠ .release t d) ∧ SessionManager.step s.tables b = some s'.tables := by
  cases a with
  | table b =>
    obtain ⟨free, ran, -⟩ := table_step moved
    refine ⟨b, ?_, ran⟩
    rintro t d rfl
    cases free
  | openCall t ready dev context env =>
    simp only [step] at moved
    split at moved
    · split at moved
      · obtain ⟨opened, ran, -⟩ := procOpenSession_spec moved
        exact ⟨_, fun t d => by simp, ran⟩
      · cases moved
    · cases moved
  | closeCall t dev env tokens =>
    simp only [step] at moved
    split at moved
    · split at moved
      · unfold closeSession at moved
        split at moved
        · cases moved
        · obtain ⟨tables, ran, rfl⟩ := Option.map_eq_some_iff.1 moved
          exact ⟨_, fun t d => by simp, ran⟩
      · cases moved
    · cases moved

theorem reach_inv {ok : Sys Dev Tid → Act Dev Tid → Prop} (run : Reach step ok Sys.init s) :
    Inv s.tables.heap s.tables.held := by
  refine run.invariant (P := fun s => Inv s.tables.heap s.tables.held) SessionManager.init_inv ?_
  intro s a s' inv _ moved
  obtain ⟨b, -, ran⟩ := step_tables moved
  exact SessionManager.step_inv inv ran

theorem Good.table {b : SessionManager.Act Dev Nat Tid} (good : Good s)
    (moved : step s (.table b) = some s') : Good s' := by
  obtain ⟨free, ran, tee⟩ := table_step moved
  have away : ∀ t env, b = .run t env → s.tables.atTee t = false := by
    rintro t env rfl
    exact free
  have same := SessionManager.step_same good.inv good.steady ran away
  have open_ : ∀ t d, b ≠ .release t d := by
    rintro t d rfl
    cases free
  refine ⟨SessionManager.step_inv good.inv ran, fun d => ?_, fun k => ?_, good.distinct.same same⟩
  · exact SessionManager.step_steady ran (good.steady d) fun t => open_ t d
  · rw [tee, listed_same same]
    exact good.agree k

variable {ready : Bool} {dev : ClientCall.Dev} {context : Context} {env : CallEnv}
  {tokens : TokenState}

/-- An open at the TEE: the sessions of both parties after it. -/
structure OpenEffect (s s' : Sys Dev Tid) (d : Dev) (ready : Bool) (p : CallParams)
    (env : CallEnv) : Prop where
  tee : ∀ k, k ∈ s'.tee ↔ k ∈ s.tee ∨
    ∃ z, Opens ready p env z ∧ k = (d, p.context.uuid, z.reply.contextId)
  listed : ∀ k, Listed s'.tables.heap k ↔ Listed s.tables.heap k ∨
    Accepted ready p env ∧ k = (d, p.context.uuid, env.first.reply.contextId)
  distinct : (Accepted ready p env →
    ¬ Listed s.tables.heap (d, p.context.uuid, env.first.reply.contextId)) →
      Distinct s'.tables.heap

theorem openCall_effect (good : Good s)
    (moved : step s (.openCall t ready dev context env) = some s') :
    ∃ d v e, s.tables.threads t = .openCall d v e ∧
      OpenEffect s s' d ready (openParams dev context) env := by
  simp only [step] at moved
  split at moved
  · rename_i d v e at_
    split at moved
    · rename_i uuid
      obtain ⟨opened, ran, tee, accepted, refused⟩ := procOpenSession_spec moved
      obtain ⟨published, unlocked⟩ := openCall_tables good.inv at_ ran
      have mine : (s.tables.held t).priv = some e := by rw [SessionManager.Sys.held, at_]; rfl
      have fresh := good.inv.priv_unlisted mine
      refine ⟨d, v, e, at_, ?_⟩
      by_cases ok : Accepted ready (openParams dev context) env
      · have heap := published _ (accepted ok)
        refine ⟨tee, fun k => ?_, fun new => ?_⟩
        · rw [heap, listed_publish fresh uuid]
          exact or_congr_right ⟨fun same => ⟨ok, same⟩, And.right⟩
        · rw [heap]
          exact good.distinct.publish fresh uuid (new ok)
      · have heap := unlocked (refused ok)
        have same : SameSessions s.tables.heap s'.tables.heap := by
          rw [heap]
          exact .of_eq rfl
        refine ⟨tee, fun k => ?_, fun _ => good.distinct.same same⟩
        rw [listed_same same]
        exact ⟨Or.inl, fun either => either.elim id fun both => absurd both.1 ok⟩
    · cases moved
  · cases moved

theorem openCall_agree (good : Good s) (fresh : TeeFresh s (.openCall t ready dev context env))
    (moved : step s (.openCall t ready dev context env) = some s') :
    Agree s' ↔ CallSafe s (.openCall t ready dev context env) := by
  obtain ⟨d, v, e, at_, effect⟩ := openCall_effect good moved
  constructor
  · intro agree z opens
    -- the new session is on a list now, and it was on none before
    have there := (agree _).1 ((effect.tee _).2 (Or.inr ⟨z, opens, rfl⟩))
    rcases (effect.listed _).1 there with old | ⟨⟨x, also, posted, copied⟩, same⟩
    · exact absurd ((good.agree _).2 old) (fresh d v e at_ z opens)
    · obtain rfl := also.unique opens
      exact ⟨posted, copied, (Prod.mk.inj (Prod.mk.inj same).2).2⟩
  · intro safe k
    rw [effect.tee, effect.listed, good.agree k]
    refine or_congr_right ⟨?_, ?_⟩
    · rintro ⟨z, opens, rfl⟩
      obtain ⟨posted, copied, first⟩ := safe z opens
      exact ⟨⟨z, opens, posted, copied⟩, by rw [first]⟩
    · rintro ⟨⟨z, opens, -⟩, rfl⟩
      exact ⟨z, opens, by rw [(safe z opens).2.2]⟩

theorem openCall_distinct (good : Good s) (fresh : TeeFresh s (.openCall t ready dev context env))
    (safe : CallSafe s (.openCall t ready dev context env))
    (moved : step s (.openCall t ready dev context env) = some s') :
    Distinct s'.tables.heap := by
  obtain ⟨d, v, e, at_, effect⟩ := openCall_effect good moved
  refine effect.distinct ?_
  rintro ⟨z, opens, -⟩ old
  refine fresh d v e at_ z opens ?_
  rw [(safe z opens).2.2]
  exact (good.agree _).2 old

/-- A close at the TEE: the driver's session is gone whatever the TEE has done. -/
theorem closeCall_effect (good : Good s)
    (moved : step s (.closeCall t dev env tokens) = some s') :
    ∃ k, Listed s.tables.heap k ∧
      (∀ j, Listed s'.tables.heap j ↔ Listed s.tables.heap j ∧ j ≠ k) ∧
      Distinct s'.tables.heap ∧
      (CallSafe s (.closeCall t dev env tokens) → ∀ j, j ∈ s'.tee ↔ j ∈ s.tee ∧ j ≠ k) ∧
      (¬ CallSafe s (.closeCall t dev env tokens) → s'.tee = s.tee) := by
  simp only [step] at moved
  split at moved
  · rename_i d v e at_
    split at moved
    · rename_i uuid named
      unfold closeSession at moved
      split at moved
      · cases moved
      · rename_i res returned
        obtain ⟨tables, ran, rfl⟩ := Option.map_eq_some_iff.1 moved
        have heap := closeCall_tables good.inv at_ ran
        obtain ⟨listed, owner⟩ := (good.inv.threads.held t).listed d v e
          (by rw [SessionManager.Sys.held, at_]; rfl)
        have closes : res.op.trace.any closesSession = true ↔
            CallSafe s (.closeCall t dev env tokens) := by
          rw [closeCall_outcome returned]
          constructor
          · intro closed c w f id hf hid
            obtain ⟨rfl, rfl, rfl⟩ := SessionManager.Pc.closeCall.inj (at_.symm.trans hf)
            obtain rfl := Option.some.inj (named.symm.trans hid)
            exact closed
          · intro safe
            exact safe d v e uuid at_ named
        refine ⟨(d, uuid, s.tables.heap.sessionId e), ⟨v, e, listed, owner, named, rfl⟩,
          fun j => ?_, ?_, fun safe j => ?_, fun unsafe_ => ?_⟩
        · simp only [heap]
          exact listed_listDel good.inv good.distinct listed owner named
        · simp only [heap]
          exact good.distinct.listDel good.inv
        · simp only [closes.2 safe, if_true]
          rw [List.mem_filter, decide_eq_true_iff]
        · exact if_neg fun closed => unsafe_ (closes.1 closed)
    · cases moved
  · cases moved

theorem closeCall_agree (good : Good s) (moved : step s (.closeCall t dev env tokens) = some s') :
    Agree s' ↔ CallSafe s (.closeCall t dev env tokens) := by
  obtain ⟨k, listed, after, -, closed, kept⟩ := closeCall_effect good moved
  constructor
  · intro agree
    by_contra notSafe
    have there : k ∈ s'.tee := by
      rw [kept notSafe]
      exact (good.agree k).2 listed
    exact ((after k).1 ((agree k).1 there)).2 rfl
  · intro safe j
    rw [closed safe j, after j, good.agree j]

theorem step_agree (good : Good s) (fresh : TeeFresh s a) (moved : step s a = some s') :
    Agree s' ↔ CallSafe s a := by
  cases a with
  | table b => exact iff_of_true (good.table moved).agree trivial
  | openCall t ready dev context env => exact openCall_agree good fresh moved
  | closeCall t dev env tokens => exact closeCall_agree good moved

theorem step_good (good : Good s) (fresh : TeeFresh s a) (safe : CallSafe s a)
    (moved : step s a = some s') : Good s' := by
  obtain ⟨b, open_, ran⟩ := step_tables moved
  refine ⟨SessionManager.step_inv good.inv ran, fun d => ?_, (step_agree good fresh moved).2 safe, ?_⟩
  · exact SessionManager.step_steady ran (good.steady d) fun t => open_ t d
  · cases a with
    | table b => exact (good.table moved).distinct
    | openCall t ready dev context env => exact openCall_distinct good fresh safe moved
    | closeCall t dev env tokens =>
      obtain ⟨k, -, -, distinct, -⟩ := closeCall_effect good moved
      exact distinct

omit [DecidableEq Dev] [DecidableEq Tid] in
theorem init_good : Good (Sys.init : Sys Dev Tid) where
  inv := SessionManager.init_inv
  steady := fun _ => rfl
  agree := by simp [Agree, Listed, Sys.init, SessionManager.Sys.init, Heap.init]
  distinct := by simp [Distinct, Sys.init, SessionManager.Sys.init, Heap.init]

theorem reach_good (run : Reach step (fun s a => TeeFresh s a ∧ CallSafe s a) Sys.init s) :
    Good s :=
  run.invariant init_good fun _ _ _ good ok moved => step_good good ok.1 ok.2 moved

end Steps

section Result

variable [DecidableEq Dev] [DecidableEq Tid] {s : Sys Dev Tid}

/-- Along every run whose calls are all safe the driver and the TEE agree on the open
sessions, and after one more call they do exactly when that call is safe. -/
theorem sessions_agree
    (run : Reach step (fun s a => TeeFresh s a ∧ CallSafe s a) Sys.init s) :
    Agree s ∧ ∀ a s', TeeFresh s a → step s a = some s' → (Agree s' ↔ CallSafe s a) := by
  have good := reach_good run
  exact ⟨good.agree, fun a s' fresh moved => step_agree good fresh moved⟩

/-- Calls that get one reply; an open gets an id that the TEE does not use. -/
def oneReply (s : Sys Dev Tid) : Act Dev Tid → Bool
  | .table _ => true
  | .openCall t _ _ context env => env.more.isEmpty &&
    match s.tables.threads t with
    | .openCall d _ _ => decide ((d, context.uuid, env.first.reply.contextId) ∉ s.tee)
    | _ => false
  | .closeCall _ _ env _ => env.more.isEmpty

/-- Calls without parameters and with one reply that is a success. -/
def oneSuccess (s : Sys Dev Tid) (a : Act Dev Tid) : Bool :=
  oneReply s a &&
    match a with
    | .table _ => true
    | .openCall _ _ _ context env => context.paramTypes == 0 && context.teecToken &&
        context.tokenLen == tokenSaveLen && env.first.tokenWrite &&
        env.first.reply.cmdId == globalCmdIdOpenSession
    | .closeCall _ _ env _ => env.smcCmdAlloc && env.mbPack.isSome &&
        env.first.reply.processed && env.first.reply.ret == 0

omit [DecidableEq Tid] in
theorem oneReply.fresh {a : Act Dev Tid} (one : oneReply s a = true) : TeeFresh s a := by
  cases a with
  | openCall t ready dev context env =>
    intro d v e at_ z opens
    simp only [oneReply, at_, Bool.and_eq_true, List.isEmpty_iff, decide_eq_true_iff] at one
    have sent := opens.sent
    rw [one.1, sent_nil] at sent
    rw [sent]
    exact one.2
  | _ => trivial

omit [DecidableEq Tid] in
theorem oneSuccess.safe {a : Act Dev Tid} (one : oneSuccess s a = true) :
    TeeFresh s a ∧ CallSafe s a := by
  simp only [oneSuccess, Bool.and_eq_true] at one
  obtain ⟨single, success⟩ := one
  refine ⟨oneReply.fresh single, ?_⟩
  cases a with
  | table b => trivial
  | openCall t ready dev context env =>
    simp only [oneReply, Bool.and_eq_true, List.isEmpty_iff, beq_iff_eq] at single success
    obtain ⟨⟨⟨⟨types, token⟩, len⟩, write⟩, cmdId⟩ := success
    intro z opens
    have sent := opens.sent
    rw [single.1, sent_nil] at sent
    subst sent
    refine ⟨fun _ => ⟨token, rfl, Or.inl ⟨cmdId, rfl⟩, len, write⟩, fun used => absurd types used, rfl⟩
  | closeCall t dev env tokens =>
    simp only [Bool.and_eq_true, beq_iff_eq] at success
    obtain ⟨⟨⟨record, pack⟩, processed⟩, granted⟩ := success
    intro d v e uuid at_ named
    refine ⟨record, pack, env.first, .here, processed, ?_⟩
    rw [granted]
    decide

end Result

section Runs

def client : ClientCall.Dev := ⟨1, ⟨0, false⟩, 0, []⟩

/-- An open without parameters; the client's token has the right length. -/
def openContext : Context where
  uuid := 7
  sessionId := 0
  cmdId := 0
  paramTypes := 0
  params := fun _ => ⟨0, 0⟩
  teecToken := true
  tokenLen := 24

/-- The TEE grants the command `cmdId` under the id 5. -/
def granted (cmdId : Nat) (tokenWrite : Bool) : CallEnv where
  mbPack := some 4096
  first := { reply := { ret := 0, cmdId := cmdId, contextId := 5 }, tokenWrite := tokenWrite }
  memcpyS := fun destMax count => decide (count ≤ destMax)

/-- One client opens a session, up to the call at the TEE. -/
def openActs : List (Act Nat (Fin 1)) :=
  [.table (.openDev 1), .table (.openSession (Fin.last 0) 1 7)] ++
    List.replicate 4 (.table (.run (Fin.last 0) {}))

/-- A session is opened and the client is about to close it. -/
theorem sessions_agree_open_close :
    ∃ s s' : Sys Nat (Fin 1),
      Reach step (fun s a => TeeFresh s a ∧ CallSafe s a) Sys.init s ∧ s.tee = [(1, 7, 5)] ∧
      Agree s ∧ step s (.closeCall 0 client (granted globalCmdIdCloseSession true) freshTokens) =
        some s' ∧ s'.tee = [] ∧ Agree s' := by
  obtain ⟨s, run, good⟩ := reach_of_play step (fun s a => oneSuccess s a = true)
    (fun s : Sys Nat (Fin 1) => decide (s.tee = [(1, 7, 5)]) &&
      (step s (.closeCall 0 client (granted globalCmdIdCloseSession true) freshTokens)).any
        fun s' => s'.tee.isEmpty)
    Sys.init
    (openActs ++ [.openCall 0 true client openContext (granted globalCmdIdOpenSession true),
      .table (.run 0 {}), .table (.closeSession 0 1 7 5)] ++ List.replicate 2 (.table (.run 0 {})))
    (by decide +kernel)
  simp only [Bool.and_eq_true, decide_eq_true_iff, Option.any_eq_true] at good
  obtain ⟨tee, s', moved, empty⟩ := good
  have safe : Reach step (fun s a => TeeFresh s a ∧ CallSafe s a) Sys.init s :=
    run.mono fun _ _ one => oneSuccess.safe one
  obtain ⟨agree, next⟩ := sessions_agree safe
  have last := oneSuccess.safe (s := s)
    (a := .closeCall 0 client (granted globalCmdIdCloseSession true) freshTokens) rfl
  exact ⟨s, s', safe, tee, agree, moved, List.isEmpty_iff.1 empty, (next _ s' last.1 moved).2 last.2⟩

/-- The TEE grants the open, but the token cannot be written to the client any more: the call
fails, the driver has no session and the TEE has one. -/
theorem unwritten_token_leaves_session :
    ∃ s : Sys Nat (Fin 1), Reach step TeeFresh Sys.init s ∧ s.tables.threads 0 = .idle ∧
      s.tee = [(1, 7, 5)] ∧ s.tables.heap.sessionList 0 = [] ∧ ¬ Agree s := by
  obtain ⟨s, run, good⟩ := reach_of_play step (fun s a => oneReply s a = true)
    (fun s : Sys Nat (Fin 1) => decide (s.tables.threads 0 = .idle ∧ s.tee = [(1, 7, 5)] ∧
      s.tables.heap.nextService = 1 ∧ s.tables.heap.sessionList 0 = []))
    Sys.init
    (openActs ++ [.openCall 0 true client openContext (granted globalCmdIdOpenSession false)] ++
      List.replicate 3 (.table (.run 0 {})))
    (by decide +kernel)
  obtain ⟨idle, tee, services, empty⟩ := of_decide_eq_true good
  refine ⟨s, run.mono fun _ _ one => oneReply.fresh one, idle, tee, empty, fun agree => ?_⟩
  obtain ⟨v, e, listed, -⟩ := (agree (1, 7, 5)).1 (by simp [tee])
  have inv := reach_inv run
  obtain ⟨n, alive⟩ := inv.listed_service listed
  have first : v < 1 := services ▸ inv.services.fresh v n alive
  obtain rfl : v = 0 := Nat.lt_one_iff.1 first
  simp [empty] at listed

end Runs

end TeeSessions
