import TrexCli.Agent.Trace
import TrexCli.Api.Credentials
import TrexCli.Client.Submit

/-!
# Who may do what to the agent

`create_app`: every route but `/healthz` and `/readyz` begins with `authenticate`, and what it then
does to the agent runs in a coroutine of its own. So between the check of a request and its effect
other requests may come and go, credentials may be reloaded and jobs run on; a request that has been
authenticated stays so when its token is revoked meanwhile. A service records with each such request
the secrets it was checked against, and keeps the requests whose effect has begun.

FastAPI has validated parameters and bodies before a route runs, and refuses what is invalid without
a call of the route, so a request here is one that its route accepts.
-/

namespace TrexCli.Api

/-- The routes of `create_app`, with what their effect on the agent depends on. -/
inductive Endpoint where
  | health
  | readiness
  | versionInformation
  | runtimeMetrics
  | submitJob (document : JobDocument) (idempotencyKey : String) (retryOf : Option JobId)
  | searchCatalog
  | publishCapture
  | describeResource
  | planTest
  | startTest (planId : String)
  | getTest
  | controlTest (job : JobId) (requestId reason : String)
  | listCalibrations
  | getJob
  | observeJob
  | cancelJob (job : JobId) (requestId reason : String)
  | getArtifact
  | cleanupArtifacts
  | reloadAuthentication

namespace Endpoint

/-- The call of `authenticate` the route begins with, if any: its `require_operator`. -/
def requireOperator? : Endpoint → Option Bool
  | health | readiness => none
  | submitJob .. | publishCapture | startTest _ | controlTest .. | cancelJob .. | cleanupArtifacts
  | reloadAuthentication => some true
  | _ => some false

/-- The idempotency key under which the route submits a job. -/
def idempotencyKey? : Endpoint → Option String
  | submitJob _ key _ => some key
  | startTest planId => some planId
  | _ => none

/-- What the route asks `request_cancel` for. -/
def cancel? : Endpoint → Option (JobId × String × String)
  | controlTest job requestId reason | cancelJob job requestId reason =>
    some (job, requestId, reason)
  | _ => none

end Endpoint

structure Request where
  authorization : Option Text
  endpoint : Endpoint

/-- A request that `authenticate` has let pass. -/
structure Grant where
  request : Request
  principal : Principal
  /-- What `resolve_secrets` had read. -/
  secrets : Secrets

/-- The agent behind its HTTP interface. -/
structure Service (D : Type) where
  agent : Agent
  /-- `config._token_digests` -/
  tokenDigests : List (Credential D)
  /-- `application.state.startup_problem` -/
  startupProblem : Option String
  /-- What the last `resolve_secrets` that did not raise had read. -/
  secrets : Secrets
  /-- The requests that are authenticated and have not reached the agent. -/
  pending : List Grant
  /-- The requests that have reached the agent, the last one first. -/
  performed : List Grant

def unauthenticated (message : String) : Exc :=
  .trexCli { code := "UNAUTHENTICATED", message, category := "INPUT" }

def agentNotReady : Exc :=
  .trexCli
    { code := "AGENT_NOT_READY", message := "the Agent database is not ready",
      category := "RESOURCE" }

def permissionDenied : Exc :=
  .trexCli
    { code := "PERMISSION_DENIED", message := "operator role is required", category := "INPUT" }

def unresolved : Exc := .exception "configuration secrets have not been resolved"

def bearer : Text := "Bearer ".toList

/-- What a coroutine finds when it reaches the agent: the id `uuid4` makes of a new job, the
document of the plan it starts, and the secrets it reloads. -/
structure Found where
  job : JobId
  plan : Except Exc JobDocument
  secrets : Secrets

inductive ServiceAction where
  /-- A request arrives and is authenticated. -/
  | receive (request : Request)
  /-- The `i`-th authenticated request reaches the agent. -/
  | perform (i : Nat) (found : Found)
  /-- A step of the agent that no request makes. -/
  | agent (a : Action)
  /-- `jobs.start` raises `DatabaseMigrationError`. -/
  | startupFails (problem : String)
  /-- The process dies and starts again, with `load_config`. -/
  | restart (secrets : Secrets)

namespace Service

variable {D : Type} [DecidableEq D] (sha256 : Text → D)

/-- `authenticate` -/
def authenticate (s : Service D) (authorization : Option Text) (requireOperator : Bool) :
    Except Exc Principal :=
  match authorization with
  | none => .error (unauthenticated "a Bearer Token is required")
  | some header =>
    if bearer.isPrefixOf header then
      if s.tokenDigests.isEmpty then .error unresolved
      else
        match s.tokenDigests.find? fun c => c.digest = sha256 (header.drop bearer.length) with
        | none => .error (unauthenticated "the Bearer Token is invalid")
        | some c =>
          if s.startupProblem.isSome then .error agentNotReady
          else if requireOperator && c.role ≠ .operator then .error permissionDenied
          else .ok c.principal
    else .error (unauthenticated "a Bearer Token is required")

variable (config : AgentConfig) (auth : AuthConfig)

/-- The agent's step for a request, where the route is more than a read. -/
def effect (s : Service D) (endpoint : Endpoint) (principal : Principal) (found : Found) :
    Option (Service D) :=
  match endpoint with
  | .submitJob document idempotencyKey retryOf =>
    (s.agent.step config (.submit found.job document principal.name idempotencyKey retryOf)).map
      fun agent => { s with agent }
  | .startTest planId =>
    -- `TestControl.start_test` checks the role again
    if principal.role ≠ .operator then some s
    else
      match found.plan with
      | .error _ => some s
      | .ok document =>
        (s.agent.step config (.submit found.job document principal.name planId none)).map
          fun agent => { s with agent }
  | .controlTest job requestId reason =>
    if principal.role ≠ .operator then some s
    else
      (s.agent.step config (.requestCancel job requestId principal.name reason)).map
        fun agent => { s with agent }
  | .cancelJob job requestId reason =>
    (s.agent.step config (.requestCancel job requestId principal.name reason)).map
      fun agent => { s with agent }
  | .reloadAuthentication =>
    match resolveSecrets sha256 auth found.secrets with
    | .ok tokenDigests => some { s with tokenDigests, secrets := found.secrets }
    -- `CREDENTIAL_RELOAD_FAILED`: prior credentials remain active
    | .error _ => some s
  | _ => some s

/-- The agent takes the step without a request. -/
def ownStep : Action → Bool
  | .submit .. | .requestCancel .. | .crash => false
  | _ => true

def step (s : Service D) : ServiceAction → Option (Service D)
  | .receive request =>
    -- the server accepts requests once the lifespan has started
    if s.agent.serving || s.startupProblem.isSome then
      match request.endpoint.requireOperator? with
      | none => some s
      | some requireOperator =>
        match s.authenticate sha256 request.authorization requireOperator with
        | .ok principal =>
          some { s with pending := s.pending ++ [⟨request, principal, s.secrets⟩] }
        | .error _ => some s
    else none
  | .perform i found =>
    match s.pending[i]? with
    | none => none
    | some g =>
      (s.effect sha256 config auth g.request.endpoint g.principal found).map fun s' =>
        { s' with pending := s.pending.eraseIdx i, performed := g :: s.performed }
  | .agent a =>
    if s.startupProblem.isNone && ownStep a then
      (s.agent.step config a).map fun agent => { s with agent }
    else none
  | .startupFails problem =>
    if s.agent.serving then none else some { s with startupProblem := some problem }
  | .restart secrets =>
    match resolveSecrets sha256 auth secrets with
    | .error _ => none
    | .ok tokenDigests =>
      (s.agent.step config .crash).map fun agent =>
        { s with agent, tokenDigests, startupProblem := none, secrets, pending := [] }

/-- The first start. -/
def start (logicalPorts : List PortId) (secrets : Secrets) (tokenDigests : List (Credential D)) :
    Service D where
  agent := .init logicalPorts
  tokenDigests
  startupProblem := none
  secrets
  pending := []
  performed := []

/-- The state after a sequence of actions. -/
def run (s : Service D) (actions : List ServiceAction) : Option (Service D) :=
  actions.foldlM (step sha256 config auth) s

/-- The states of a service whose configuration stays as it is. -/
inductive Reach (logicalPorts : List PortId) : Service D → Prop where
  | start {secrets : Secrets} {tokenDigests : List (Credential D)}
      (h : resolveSecrets sha256 auth secrets = .ok tokenDigests) :
      Reach logicalPorts (start logicalPorts secrets tokenDigests)
  | step {s s' : Service D} {a : ServiceAction} (h : Reach logicalPorts s)
      (hs : s.step sha256 config auth a = some s') : Reach logicalPorts s'

variable {sha256 config auth}

theorem Reach.run {logicalPorts : List PortId} {actions : List ServiceAction} {s s' : Service D}
    (h : s.Reach sha256 config auth logicalPorts)
    (hrun : s.run sha256 config auth actions = some s') :
    s'.Reach sha256 config auth logicalPorts := by
  induction actions generalizing s with
  | nil =>
    obtain rfl := Option.some.inj hrun
    exact h
  | cons a actions ih =>
    rw [Service.run, List.foldlM_cons] at hrun
    obtain ⟨s₁, hs₁, hrest⟩ := Option.bind_eq_some_iff.mp hrun
    exact ih (h.step hs₁) hrest

end Service

/-! ### Who the rows of the database name -/

/-- Every job comes from a submission that `P` holds of, and every cancel request is a `Q`. -/
def Attributed (P : String × String → Prop) (Q : CancelRequest → Prop) (db : Db) : Prop :=
  (∀ r ∈ db.jobs.rows, P r.identity) ∧ ∀ c ∈ db.cancelRequests.rows, Q c

section Attributed

variable {P P' : String × String → Prop} {Q Q' : CancelRequest → Prop} {db db' : Db}

theorem Attributed.mono (h : Attributed P Q db) (hP : ∀ i, P i → P' i) (hQ : ∀ c, Q c → Q' c) :
    Attributed P' Q' db :=
  ⟨fun r hr => hP _ (h.1 r hr), fun c hc => hQ _ (h.2 c hc)⟩

/-- Rows with the identities of the old ones, and perhaps one more. -/
theorem Attributed.of_rows (h : Attributed P Q db) (new : List (String × String))
    (requests : List CancelRequest)
    (hjobs : db'.jobs.rows.map JobRow.identity = db.jobs.rows.map JobRow.identity ++ new)
    (hrequests : db'.cancelRequests.rows = db.cancelRequests.rows ++ requests)
    (hP : ∀ i ∈ new, P i) (hQ : ∀ c ∈ requests, Q c) : Attributed P Q db' := by
  constructor
  · intro r hr
    have hmem : r.identity ∈ db.jobs.rows.map JobRow.identity ++ new := by
      rw [← hjobs]
      exact List.mem_map_of_mem hr
    rcases List.mem_append.mp hmem with hold | hnew
    · obtain ⟨r₀, hr₀, heq⟩ := List.mem_map.mp hold
      exact heq ▸ h.1 r₀ hr₀
    · exact hP _ hnew
  · intro c hc
    rw [hrequests] at hc
    rcases List.mem_append.mp hc with hold | hnew
    · exact h.2 c hold
    · exact hQ c hnew

theorem Attributed.of_same (h : Attributed P Q db)
    (hjobs : db'.jobs.rows.map JobRow.identity = db.jobs.rows.map JobRow.identity)
    (hrequests : db'.cancelRequests = db.cancelRequests) : Attributed P Q db' :=
  h.of_rows [] [] (by rw [hjobs, List.append_nil]) (by rw [hrequests, List.append_nil]) (by simp)
    (by simp)

theorem cancelRequests_exec (c : StoreCall) : (c.exec db).2.cancelRequests = db.cancelRequests := by
  cases c with
  | updateSnapshot s expectedRevision eventType resolvedSpecJson =>
    change (db.updateSnapshot s expectedRevision eventType resolvedSpecJson).2.cancelRequests = _
    unfold Db.updateSnapshot
    split
    · rfl
    · split
      · rfl
      · dsimp only [bind, Except.bind]
        generalize hadd : Db.addEvent _ _ _ = r
        cases r with
        | error e => rfl
        | ok db' =>
          obtain ⟨-, -, -, -, -, hrequests⟩ := Db.addEvent_eq_ok hadd
          exact hrequests
  | _ => rfl

theorem Attributed.exec (h : Attributed P Q db) (c : StoreCall) : Attributed P Q (c.exec db).2 :=
  h.of_same (Db.exec_identities c) (cancelRequests_exec c)

theorem Attributed.createJob (h : Attributed P Q db) (s : JobSnapshot)
    {principal idempotencyKey : String} (document : JobDocument) (retryOf : Option JobId)
    (hP : P (principal, idempotencyKey)) :
    Attributed P Q (db.createJob s principal idempotencyKey document retryOf).2 := by
  unfold Db.createJob
  split
  · split
    · exact h
    · exact h
  · cases db.checkRetry s.submittedSpecDigest retryOf with
    | error e => exact h
    | ok u =>
      dsimp only [bind, Except.bind]
      split
      · exact h
      · rename_i jobs hins
        generalize hadd : Db.addEvent _ _ _ = r
        cases r with
        | error e => exact h
        | ok db' =>
          obtain ⟨-, -, hjobs, -, -, hrequests⟩ := Db.addEvent_eq_ok hadd
          refine h.of_rows [(principal, idempotencyKey)] [] ?_ ?_ ?_ ?_
          · change db'.jobs.rows.map JobRow.identity = _
            rw [hjobs]
            change jobs.rows.map JobRow.identity = _
            rw [db.jobs.insert_rows hins, List.map_append]
            rfl
          · rw [List.append_nil]
            exact congrArg Table.rows hrequests
          · simpa using hP
          · simp

/-- A cancel adds its own request, or none. -/
theorem cancelRequests_requestCancel (db : Db) (job : JobId) (requestId principal reason : String) :
    ∃ requests : List CancelRequest,
      (db.requestCancel job requestId principal reason).2.cancelRequests.rows =
        db.cancelRequests.rows ++ requests ∧
      ∀ c ∈ requests, c = ⟨job, requestId, principal, reason⟩ := by
  have hnone : ∃ requests : List CancelRequest, db.cancelRequests.rows =
      db.cancelRequests.rows ++ requests ∧ ∀ c ∈ requests, c = ⟨job, requestId, principal, reason⟩ :=
    ⟨[], by simp, by simp⟩
  unfold Db.requestCancel
  cases db.getSnapshot job with
  | error e => exact hnone
  | ok snapshot =>
    dsimp only [bind, Except.bind]
    split
    · exact hnone
    · split
      · exact hnone
      · rename_i cancelRequests hins
        generalize hadd : Db.addEvent _ _ _ = r
        cases r with
        | error e => exact hnone
        | ok db' =>
          obtain ⟨-, -, -, -, -, hrequests⟩ := Db.addEvent_eq_ok hadd
          refine ⟨[⟨job, requestId, principal, reason⟩], ?_, by simp⟩
          exact (congrArg Table.rows hrequests).trans (db.cancelRequests.insert_rows hins)

theorem Attributed.requestCancel (h : Attributed P Q db) {job : JobId}
    {requestId principal reason : String} (hQ : Q ⟨job, requestId, principal, reason⟩) :
    Attributed P Q (db.requestCancel job requestId principal reason).2 := by
  obtain ⟨requests, hrequests, hnew⟩ :=
    cancelRequests_requestCancel db job requestId principal reason
  refine h.of_rows [] requests ?_ hrequests (by simp) ?_
  · rw [List.append_nil]
    exact Db.requestCancel_identities job requestId principal reason
  · intro c hc
    exact hnew c hc ▸ hQ

theorem Attributed.answered {config : AgentConfig} {s s' : Agent} {answers : Answers} {c : Call}
    {r : Except Exc c.Res} (h : Attributed P Q s.db)
    (hr : s.exec config answers c = some (r, s')) : Attributed P Q s'.db := by
  cases c with
  | store c =>
    obtain ⟨-, rfl⟩ := Prod.mk.inj (Option.some.inj hr)
    exact h.exec c
  | engine | validatePolicy | validateCalibration | recordCalibrations | buildResultBundle =>
    obtain ⟨rfl, -⟩ := outside_eq_some hr
    exact h
  | _ =>
    obtain ⟨-, rfl⟩ := Prod.mk.inj (Option.some.inj hr)
    exact h

theorem Attributed.thrown {s s' : Agent} {i : Nat} {t : AgentTask} {e : Exc}
    (h : Attributed P Q s.db) (hs : s.throwInto i t e = some s') : Attributed P Q s'.db := by
  unfold Agent.throwInto at hs
  split at hs
  · cases hs
  · split at hs
    · obtain rfl := Option.some.inj hs
      exact h
    · cases hs

/-- What a step of the agent adds to the rows names what the step was asked for. -/
theorem Attributed.step {config : AgentConfig} {s s' : Agent} {a : Action}
    (h : Attributed P Q s.db) (hs : s.step config a = some s')
    (hP : ∀ job document principal idempotencyKey retryOf,
      a = .submit job document principal idempotencyKey retryOf → P (principal, idempotencyKey))
    (hQ : ∀ job requestId principal reason, a = .requestCancel job requestId principal reason →
      Q ⟨job, requestId, principal, reason⟩) : Attributed P Q s'.db := by
  cases a with
  | submit job document principal idempotencyKey retryOf =>
    simp only [Agent.step, Option.ite_none_right_eq_some, Option.some.injEq] at hs
    obtain ⟨-, rfl⟩ := hs
    exact h.createJob _ document retryOf (hP _ _ _ _ _ rfl)
  | requestCancel job requestId principal reason =>
    have hcancel := h.requestCancel (hQ job requestId principal reason rfl)
    simp only [Agent.step, Option.ite_none_right_eq_some] at hs
    obtain ⟨-, hs⟩ := hs
    generalize s.db.requestCancel job requestId principal reason = r at hs hcancel
    obtain ⟨_ | _, db⟩ := r
    · obtain rfl := Option.some.inj hs
      exact hcancel
    · obtain rfl := Option.some.inj hs
      exact hcancel
  | cancelTask job =>
    simp only [Agent.step, Option.ite_none_right_eq_some] at hs
    obtain ⟨-, hs⟩ := hs
    split at hs
    · obtain rfl := Option.some.inj hs
      exact h
    · split at hs
      · obtain rfl := Option.some.inj hs
        exact h
      · split at hs
        · obtain rfl := Option.some.inj hs
          exact h
        · exact Attributed.thrown (s := { s with cancelling := s.cancelling.erase job }) h hs
  | deadline i =>
    simp only [Agent.step] at hs
    split at hs
    · cases hs
    · split at hs
      · exact h.thrown hs
      · cases hs
  | task i answers =>
    simp only [Agent.step] at hs
    split at hs
    · cases hs
    · split at hs
      · cases hs
      · split at hs
        · cases hs
        · rename_i hr
          have hdb := h.answered hr
          obtain rfl := Option.some.inj hs
          exact hdb
  | scheduler answers =>
    simp only [Agent.step] at hs
    split at hs
    · cases hs
    · split at hs
      · cases hs
      · rename_i hr
        have hdb := h.answered hr
        obtain rfl := Option.some.inj hs
        exact hdb
  | serve =>
    simp only [Agent.step] at hs
    split at hs
    · obtain rfl := Option.some.inj hs
      exact h
    · cases hs
  | tick =>
    simp only [Agent.step, Option.ite_none_right_eq_some, Option.some.injEq] at hs
    obtain ⟨-, rfl⟩ := hs
    exact h
  | late n =>
    simp only [Agent.step] at hs
    split at hs
    · cases hs
    · rename_i c _
      obtain rfl := Option.some.inj hs
      exact h.exec c
  | reportProgress job update completed total =>
    simp only [Agent.step, Option.ite_none_right_eq_some, Option.some.injEq] at hs
    obtain ⟨-, rfl⟩ := hs
    exact h
  | advance | crash =>
    obtain rfl := Option.some.inj hs
    exact h

end Attributed

/-! ### Requests and the secrets they bear -/

section Rules

variable {D : Type} (sha256 : Text → D) (auth : AuthConfig)

/-- The header bears a token whose secrets these are, and whose role is enough. -/
def Admitted (secrets : Secrets) (authorization : Option Text) (requireOperator : Bool)
    (principal : Principal) : Prop :=
  ∃ supplied, authorization = some (bearer ++ supplied) ∧
    ∃ t ∈ auth.tokens, Bears sha256 secrets t supplied ∧ t.principal = principal ∧
      (requireOperator = true → t.role = .operator)

/-- The request bears a token that its route accepts. -/
def Authorised (g : Grant) : Prop :=
  ∃ requireOperator, g.request.endpoint.requireOperator? = some requireOperator ∧
    Admitted sha256 auth g.secrets g.request.authorization requireOperator g.principal

/-- The request submits the job. -/
def Grant.Submits (g : Grant) (identity : String × String) : Prop :=
  g.principal.name = identity.1 ∧ g.request.endpoint.idempotencyKey? = some identity.2

/-- The request asks for the cancel. -/
def Grant.Requests (g : Grant) (c : CancelRequest) : Prop :=
  g.principal.name = c.principal ∧
    g.request.endpoint.cancel? = some (c.jobId, c.requestId, c.reason)

/-- An operator of the configuration has this name. -/
def AuthConfig.HasOperator (name : String) : Prop :=
  ∃ t ∈ auth.tokens, t.role = .operator ∧ t.name = name

/-- Who has access to a service. -/
structure AccessRules [DecidableEq D] (s : Service D) : Prop where
  complete : Complete sha256 auth.tokens s.secrets
  authenticate : ∀ authorization requireOperator principal,
    s.authenticate sha256 authorization requireOperator = .ok principal ↔
      s.startupProblem = none ∧
        Admitted sha256 auth s.secrets authorization requireOperator principal
  operator : s.startupProblem = none → ∃ value principal,
    s.authenticate sha256 (some (bearer ++ value)) true = .ok principal
  performed : ∀ g ∈ s.performed, Authorised sha256 auth g
  jobs : ∀ row ∈ s.agent.db.jobs.rows,
    (∃ g ∈ s.performed, g.Submits row.identity) ∧ auth.HasOperator row.principal
  cancels : ∀ c ∈ s.agent.db.cancelRequests.rows,
    (∃ g ∈ s.performed, g.Requests c) ∧ auth.HasOperator c.principal

/-- The rows of the agent's database, as the performed requests account for them. -/
abbrev Service.Accounted (s : Service D) (db : Db) : Prop :=
  Attributed (fun i => ∃ g ∈ s.performed, g.Submits i) (fun c => ∃ g ∈ s.performed, g.Requests c) db

/-- The invariant. -/
structure Guarded (s : Service D) : Prop where
  resolved : Resolved sha256 auth.tokens s.secrets s.tokenDigests
  pending : ∀ g ∈ s.pending, Authorised sha256 auth g
  performed : ∀ g ∈ s.performed, Authorised sha256 auth g
  accounted : s.Accounted s.agent.db

variable {sha256 auth} [DecidableEq D]

/-- `authenticate` accepts exactly the tokens whose digests are stored. -/
theorem authenticate_eq_ok {s : Service D}
    (h : Resolved sha256 auth.tokens s.secrets s.tokenDigests) (authorization : Option Text)
    (requireOperator : Bool) (principal : Principal) :
    s.authenticate sha256 authorization requireOperator = .ok principal ↔
      s.startupProblem = none ∧
        Admitted sha256 auth s.secrets authorization requireOperator principal := by
  have hne : s.tokenDigests.isEmpty = false := by
    obtain ⟨t, ht, -⟩ := auth.operator
    simpa using h.ne_nil ht
  constructor
  · intro hok
    unfold Service.authenticate at hok
    cases authorization with
    | none => cases hok
    | some header =>
      dsimp only at hok
      split at hok
      · rename_i hbearer
        rw [hne] at hok
        simp only [Bool.false_eq_true, if_false] at hok
        have heq := List.prefix_iff_eq_append.mp (List.isPrefixOf_iff_prefix.mp hbearer)
        cases hfind : s.tokenDigests.find?
            fun c => c.digest = sha256 (header.drop bearer.length) with
        | none =>
          rw [hfind] at hok
          cases hok
        | some c =>
          simp only [hfind] at hok
          split at hok
          · cases hok
          · rename_i hproblem
            split at hok
            · cases hok
            · rename_i hrole
              obtain rfl := Except.ok.inj hok
              refine ⟨by simpa using hproblem, header.drop bearer.length, by rw [heq], ?_⟩
              obtain ⟨t, ht, hbears, hprincipal⟩ :=
                (h.find?_eq_some (header.drop bearer.length) c.principal).mp (by rw [hfind]; rfl)
              have hroles : t.role = c.role := congrArg Principal.role hprincipal
              refine ⟨t, ht, hbears, hprincipal, fun hrequire => ?_⟩
              rw [hroles]
              simpa [hrequire] using hrole
      · cases hok
  · rintro ⟨hproblem, supplied, rfl, t, ht, hbears, rfl, hrole⟩
    have hfound := (h.find?_eq_some supplied t.principal).mpr ⟨t, ht, hbears, rfl⟩
    obtain ⟨c, hc, hprincipal⟩ := Option.map_eq_some_iff.mp hfound
    have hroles : c.role = t.role := congrArg Principal.role hprincipal
    have hbearer : bearer.isPrefixOf (bearer ++ supplied) = true :=
      List.isPrefixOf_iff_prefix.mpr (List.prefix_append _ _)
    simp only [Service.authenticate, hbearer, if_true, hne, Bool.false_eq_true, if_false,
      List.drop_left, hc, hproblem, Option.isSome_none]
    rw [if_neg, hprincipal]
    rw [hroles]
    intro hdenied
    rw [Bool.and_eq_true] at hdenied
    simp [hrole hdenied.1] at hdenied

/-- There is always a token of an operator. -/
theorem authenticate_operator {s : Service D}
    (h : Resolved sha256 auth.tokens s.secrets s.tokenDigests) (hproblem : s.startupProblem = none) :
    ∃ value principal, s.authenticate sha256 (some (bearer ++ value)) true = .ok principal := by
  obtain ⟨t, ht, hrole⟩ := auth.operator
  obtain ⟨value, hvalue⟩ := h.read t ht
  exact ⟨value, t.principal, (authenticate_eq_ok h _ _ _).mpr
    ⟨hproblem, value, rfl, t, ht, ⟨value, hvalue, rfl⟩, rfl, fun _ => hrole⟩⟩

omit [DecidableEq D] in
/-- The principal of a request to a route for operators is one. -/
theorem Authorised.hasOperator {g : Grant} (h : Authorised sha256 auth g)
    (hrequire : g.request.endpoint.requireOperator? = some true) :
    auth.HasOperator g.principal.name := by
  obtain ⟨requireOperator, hsome, supplied, -, t, ht, -, hprincipal, hrole⟩ := h
  obtain rfl := Option.some.inj (hsome.symm.trans hrequire)
  exact ⟨t, ht, hrole rfl, congrArg Principal.name hprincipal⟩

theorem requireOperator_of_submits {endpoint : Endpoint} {idempotencyKey : String}
    (h : endpoint.idempotencyKey? = some idempotencyKey) : endpoint.requireOperator? = some true := by
  cases endpoint with
  | submitJob | startTest => rfl
  | _ => cases h

theorem requireOperator_of_cancels {endpoint : Endpoint} {request : JobId × String × String}
    (h : endpoint.cancel? = some request) : endpoint.requireOperator? = some true := by
  cases endpoint with
  | controlTest | cancelJob => rfl
  | _ => cases h

theorem Guarded.rules {s : Service D} (h : Guarded sha256 auth s) : AccessRules sha256 auth s where
  complete := h.resolved.complete auth.names_nodup
  authenticate := authenticate_eq_ok h.resolved
  operator := authenticate_operator h.resolved
  performed := h.performed
  jobs row hrow := by
    obtain ⟨g, hg, hname, hkey⟩ := h.accounted.1 row hrow
    refine ⟨⟨g, hg, hname, hkey⟩, ?_⟩
    have hoperator := (h.performed g hg).hasOperator (requireOperator_of_submits hkey)
    rw [hname] at hoperator
    exact hoperator
  cancels c hc := by
    obtain ⟨g, hg, hname, hcancel⟩ := h.accounted.2 c hc
    refine ⟨⟨g, hg, hname, hcancel⟩, ?_⟩
    have hoperator := (h.performed g hg).hasOperator (requireOperator_of_cancels hcancel)
    rwa [hname] at hoperator

variable {config : AgentConfig}

/-- Everything the effect of a request can be. -/
inductive Effected (sha256 : Text → D) (config : AgentConfig) (auth : AuthConfig) (s : Service D)
    (endpoint : Endpoint) (principal : Principal) (found : Found) : Service D → Prop where
  | none : Effected sha256 config auth s endpoint principal found s
  | submitted (document : JobDocument) (idempotencyKey : String) (retryOf : Option JobId)
      (agent : Agent) (hkey : endpoint.idempotencyKey? = some idempotencyKey)
      (hs : s.agent.step config
        (.submit found.job document principal.name idempotencyKey retryOf) = some agent) :
      Effected sha256 config auth s endpoint principal found { s with agent }
  | cancelled (job : JobId) (requestId reason : String) (agent : Agent)
      (hcancel : endpoint.cancel? = some (job, requestId, reason))
      (hs : s.agent.step config (.requestCancel job requestId principal.name reason) = some agent) :
      Effected sha256 config auth s endpoint principal found { s with agent }
  | reloaded (tokenDigests : List (Credential D))
      (hload : resolveSecrets sha256 auth found.secrets = .ok tokenDigests) :
      Effected sha256 config auth s endpoint principal found
        { s with tokenDigests, secrets := found.secrets }

theorem effect_cases {s s' : Service D} {endpoint : Endpoint} {principal : Principal} {found : Found}
    (hs : s.effect sha256 config auth endpoint principal found = some s') :
    Effected sha256 config auth s endpoint principal found s' := by
  cases endpoint with
  | submitJob document idempotencyKey retryOf =>
    obtain ⟨agent, hagent, rfl⟩ := Option.map_eq_some_iff.mp hs
    exact .submitted document idempotencyKey retryOf agent rfl hagent
  | startTest planId =>
    simp only [Service.effect] at hs
    split at hs
    · obtain rfl := Option.some.inj hs
      exact .none
    · split at hs
      · obtain rfl := Option.some.inj hs
        exact .none
      · obtain ⟨agent, hagent, rfl⟩ := Option.map_eq_some_iff.mp hs
        exact .submitted _ planId none agent rfl hagent
  | controlTest job requestId reason =>
    simp only [Service.effect] at hs
    split at hs
    · obtain rfl := Option.some.inj hs
      exact .none
    · obtain ⟨agent, hagent, rfl⟩ := Option.map_eq_some_iff.mp hs
      exact .cancelled job requestId reason agent rfl hagent
  | cancelJob job requestId reason =>
    obtain ⟨agent, hagent, rfl⟩ := Option.map_eq_some_iff.mp hs
    exact .cancelled job requestId reason agent rfl hagent
  | reloadAuthentication =>
    simp only [Service.effect] at hs
    split at hs
    · rename_i tokenDigests hload
      obtain rfl := Option.some.inj hs
      exact .reloaded tokenDigests hload
    · obtain rfl := Option.some.inj hs
      exact .none
  | _ =>
    obtain rfl := Option.some.inj hs
    exact .none

/-- A request that reaches the agent accounts for what it adds. -/
theorem Guarded.effect {s s' : Service D} {g : Grant} {found : Found} (h : Guarded sha256 auth s)
    (hg : Authorised sha256 auth g)
    (heffect : Effected sha256 config auth s g.request.endpoint g.principal found s') :
    Guarded sha256 auth { s' with performed := g :: s.performed } := by
  have haccounted : Service.Accounted { s with performed := g :: s.performed } s.agent.db :=
    h.accounted.mono
      (fun _ hi => hi.imp fun _ hmem => ⟨List.mem_cons_of_mem _ hmem.1, hmem.2⟩)
      fun _ hc => hc.imp fun _ hmem => ⟨List.mem_cons_of_mem _ hmem.1, hmem.2⟩
  have hperformed : ∀ g' ∈ g :: s.performed, Authorised sha256 auth g' := by
    intro g' hg'
    rcases List.mem_cons.mp hg' with rfl | hg'
    · exact hg
    · exact h.performed g' hg'
  cases heffect with
  | none => exact ⟨h.resolved, h.pending, hperformed, haccounted⟩
  | submitted document idempotencyKey retryOf agent hkey hs =>
    refine ⟨h.resolved, h.pending, hperformed, haccounted.step hs ?_ ?_⟩
    · intro job document' principal key retry heq
      cases heq
      exact ⟨g, List.mem_cons_self, rfl, hkey⟩
    · intro job requestId principal reason heq
      cases heq
  | cancelled job requestId reason agent hcancel hs =>
    refine ⟨h.resolved, h.pending, hperformed, haccounted.step hs ?_ ?_⟩
    · intro job document principal key retry heq
      cases heq
    · intro job' requestId' principal reason' heq
      cases heq
      exact ⟨g, List.mem_cons_self, rfl, hcancel⟩
  | reloaded tokenDigests hload =>
    exact ⟨resolved_of_resolveSecrets hload, h.pending, hperformed, haccounted⟩

theorem Guarded.start {logicalPorts : List PortId} {secrets : Secrets}
    {tokenDigests : List (Credential D)}
    (h : resolveSecrets sha256 auth secrets = .ok tokenDigests) :
    Guarded sha256 auth (.start logicalPorts secrets tokenDigests) where
  resolved := resolved_of_resolveSecrets h
  pending := by simp [Service.start]
  performed := by simp [Service.start]
  accounted := by
    constructor
    · intro r hr
      cases hr
    · intro c hc
      cases hc

theorem Guarded.step {s s' : Service D} {a : ServiceAction} (h : Guarded sha256 auth s)
    (hs : s.step sha256 config auth a = some s') : Guarded sha256 auth s' := by
  cases a with
  | receive request =>
    simp only [Service.step, Option.ite_none_right_eq_some] at hs
    obtain ⟨-, hs⟩ := hs
    split at hs
    · obtain rfl := Option.some.inj hs
      exact h
    · rename_i requireOperator hrequire
      split at hs
      · rename_i principal hauthenticated
        obtain rfl := Option.some.inj hs
        refine ⟨h.resolved, fun g hg => ?_, h.performed, h.accounted⟩
        rcases List.mem_append.mp hg with hg | hg
        · exact h.pending g hg
        · obtain rfl := List.mem_singleton.mp hg
          exact ⟨requireOperator, hrequire,
            ((authenticate_eq_ok h.resolved _ _ _).mp hauthenticated).2⟩
      · obtain rfl := Option.some.inj hs
        exact h
  | perform i found =>
    simp only [Service.step] at hs
    split at hs
    · cases hs
    · rename_i g hg
      obtain ⟨s₁, hs₁, rfl⟩ := Option.map_eq_some_iff.mp hs
      have hguarded := h.effect (h.pending g (List.mem_of_getElem? hg)) (effect_cases hs₁)
      exact ⟨hguarded.resolved, fun g' hg' => h.pending g' (List.mem_of_mem_eraseIdx hg'),
        hguarded.performed, hguarded.accounted⟩
  | agent a =>
    simp only [Service.step, Option.ite_none_right_eq_some, Bool.and_eq_true] at hs
    obtain ⟨⟨-, hown⟩, hs⟩ := hs
    obtain ⟨agent, hagent, rfl⟩ := Option.map_eq_some_iff.mp hs
    refine ⟨h.resolved, h.pending, h.performed, h.accounted.step hagent ?_ ?_⟩
    · intro job document principal key retry heq
      subst heq
      cases hown
    · intro job requestId principal reason heq
      subst heq
      cases hown
  | startupFails problem =>
    simp only [Service.step, Option.ite_none_left_eq_some, Option.some.injEq] at hs
    obtain ⟨-, rfl⟩ := hs
    exact ⟨h.resolved, h.pending, h.performed, h.accounted⟩
  | restart secrets =>
    simp only [Service.step] at hs
    split at hs
    · cases hs
    · rename_i tokenDigests hload
      obtain ⟨agent, hagent, rfl⟩ := Option.map_eq_some_iff.mp hs
      refine ⟨resolved_of_resolveSecrets hload, by simp, h.performed,
        h.accounted.step hagent ?_ ?_⟩
      · intro job document principal key retry heq
        cases heq
      · intro job requestId principal reason heq
        cases heq

/-- The credentials are always those of one complete load, and exactly their tokens are accepted;
every request that reaches the agent has been authorised for its route; and every job and every
cancel request in the database names the principal of such a request. -/
theorem access_rules {logicalPorts : List PortId} {s : Service D}
    (h : s.Reach sha256 config auth logicalPorts) : AccessRules sha256 auth s := by
  have hguarded : Guarded sha256 auth s := by
    induction h with
    | start h => exact .start h
    | step _ hs ih => exact ih.step hs
  exact hguarded.rules

end Rules

/-! ### A rotated token -/

def labTokens : List TokenConfig := [⟨"ops", .operator, .env "OPS"⟩, ⟨"view", .readOnly, .env "VIEW"⟩]

theorem nodup_labTokens : (labTokens.map TokenConfig.name).Nodup := by decide

theorem operator_labTokens : ∃ t ∈ labTokens, t.role = .operator := exists_operator rfl

def labAuth : AuthConfig := ⟨labTokens, nodup_labTokens, operator_labTokens⟩

/-- An environment with these two values. -/
def labSecrets (ops view : String) : Secrets where
  env name := if name = "OPS" then some ops.toList else some view.toList
  file _ := .error .osError

def labRequest (value : String) (endpoint : Endpoint) : ServiceAction :=
  .receive ⟨some (bearer ++ value.toList), endpoint⟩

/-- The agent starts; a job is submitted, the operator's token is rotated while the submission is on
its way, and neither the old token nor that of the reader can cancel the job. -/
def rotation : List ServiceAction :=
  [.agent (.scheduler .succeed), .agent (.scheduler .succeed), .agent .serve,
    labRequest "one" (.submitJob labDocument "key" none), labRequest "one" .reloadAuthentication,
    .perform 1 ⟨0, .error .cancelled, labSecrets "two" "reader"⟩,
    .perform 0 ⟨7, .error .cancelled, labSecrets "" ""⟩,
    labRequest "one" (.cancelJob 7 "request" ""), labRequest "reader" (.cancelJob 7 "request" ""),
    labRequest "two" (.cancelJob 7 "request" ""),
    .perform 0 ⟨0, .error .cancelled, labSecrets "" ""⟩]

theorem access_rules_rotation : ∃ s : Service Text,
    s.performed.length = 3 ∧ s.agent.db.jobs.rows.length = 1 ∧
      s.agent.db.cancelRequests.rows.length = 1 ∧ AccessRules id labAuth s := by
  obtain ⟨s, hrun, hperformed, hjobs, hcancels⟩ : ∃ s : Service Text,
      (Service.start [0, 1] (labSecrets "one" "reader")
        [⟨"ops", "one".toList, .operator⟩, ⟨"view", "reader".toList, .readOnly⟩]).run
          id labConfig labAuth rotation = some s ∧ s.performed.length = 3 ∧
        s.agent.db.jobs.rows.length = 1 ∧ s.agent.db.cancelRequests.rows.length = 1 :=
    ⟨_, rfl, rfl, rfl, rfl⟩
  exact ⟨s, hperformed, hjobs, hcancels, access_rules ((Service.Reach.start rfl).run hrun)⟩

end TrexCli.Api
