import Mathlib.Logic.Function.Basic
import Mathlib.Logic.Relation
import TrexCli.Lib.Coroutine
import TrexCli.Jobs.Calls

/-!
# Reconciliation of a marker

`_reconcile_sync` of the remote STL engine, against a server with other users. A call to the server is
atomic, and between two calls the others acquire ports that nobody owns, use them, and release them.
The owners are read first and one `force` flag for all ports follows from them, so a port that was
free when it was read is taken by force from whoever acquired it since, if another port of the marker
makes the flag true. The calls are in order from exactly the states in which the session owns all of
the marker's ports or none (`reconcile_safe_iff`).
-/

namespace TrexCli.Reconcile

open Coroutine Relation

/-! ### The function -/

inductive ClientCall where
  | connect
  | getPortCount
  | getOwner (port : Nat)
  | acquire (ports : List Nat) (force : Bool)
  | isActive (port : Nat)
  | stop (ports : List Nat)
  | reset (ports : List Nat)
  | release (ports : List Nat)
  | disconnect

def ClientCall.Response : ClientCall → Type
  | .getPortCount => Nat
  | .getOwner _ => String
  | .isActive _ => Bool
  | _ => Unit

/-- The local variables that the `finally` block reads. -/
structure Locals where
  acquired : Bool := false
  connected : Bool := false

abbrev Client := Py Unit ClientCall ClientCall.Response Exc Locals

def request (c : ClientCall) : Client c.Response := Py.call c

/-- `_owner` -/
def ownerName (username sessionId : String) : String :=
  String.ofList (username.toList.take 24 ++ '-' :: (sessionId.toList.filter (· ≠ '-')).take 32)

def portsJson (ports : List Nat) : Json := .arr (ports.map fun port : Nat => .num port)

/-- The `owners` of the ports, by the text of the port. -/
def ownersJson (owners : List (Nat × String)) : Json :=
  .obj (owners.map fun p => (toString p.1, .str p.2))

/-- `client.get_port(port).is_active()` for each port; those for which it is true. -/
def activePorts (ports : List Nat) : Client (List Nat) := do
  let active : List Bool ← Py.mapEach (fun port => request (.isActive port)) ports
  pure (((ports.zip active).filter fun p => p.2).map Prod.fst)

/-- What follows once the ports are acquired. -/
def idle (ports : List Nat) (owners : List (Nat × String)) (kind : String) :
    Client ReconcileResult := do
  let active ← activePorts ports
  Py.when (active ≠ []) (request (.stop active))
  request (.reset ports)
  let stillActive ← activePorts ports
  if stillActive ≠ [] then
    pure ⟨false, .obj [("reason", .str "traffic-still-active"), ("ports", portsJson stillActive)]⟩
  else do
    request (.release ports)
    Py.assign fun s => { s with acquired := false }
    pure ⟨true, .obj [("reason", .str "stopped-and-reset"), ("owners", ownersJson owners),
      ("ports", portsJson ports), ("kind", .str kind)]⟩

/-- What follows once the owners are read. -/
def claim (expectedOwner : String) (ports : List Nat) (owners : List (Nat × String))
    (kind : String) : Client ReconcileResult :=
  if ∃ p ∈ owners, p.2 ≠ "" ∧ p.2 ≠ expectedOwner then
    pure ⟨false, .obj [("reason", .str "owner-mismatch"), ("owners", ownersJson owners)]⟩
  else do
    request (.acquire ports (owners.any fun p => p.2 = expectedOwner))
    Py.assign fun s => { s with acquired := true }
    idle ports owners kind

/-- The `try` block. -/
def body (expectedOwner : String) (ports : List Nat) (kind : String) : Client ReconcileResult := do
  request .connect
  Py.assign fun s => { s with connected := true }
  let invalid ← Py.anyEach (fun port => do
    let count : Nat ← request .getPortCount
    pure (decide (count ≤ port))) ports
  if invalid then
    pure ⟨false, .obj [("reason", .str "port-mapping-invalid"), ("ports", portsJson ports)]⟩
  else do
    let owners ← Py.mapEach (fun port => do
      let owner : String ← request (.getOwner port)
      pure (port, owner)) ports
    claim expectedOwner ports owners kind

/-- A call whose exception is swallowed. -/
def quietly (c : ClientCall) : Client Unit :=
  Py.tryExcept (do let _ ← request c; pure ()) fun _ => pure ()

/-- The `finally` block. -/
def finalizer (ports : List Nat) : Client Unit := do
  let s ← Py.locals
  Py.when (s.acquired = true) (quietly (.release ports))
  Py.when (s.connected = true) (quietly .disconnect)

/-- `_reconcile_sync` -/
def reconcileSync (expectedOwner : String) (ports : List Nat) (kind : String) :
    Client ReconcileResult :=
  Py.tryFinally (body expectedOwner ports kind) (finalizer ports)

/-! ### The server -/

/-- A port of the server; the owner is empty while nobody owns it. -/
structure PortStatus where
  owner : String
  active : Bool

abbrev PortTable := Nat → PortStatus

/-- Somebody else owns the port. -/
def PortStatus.Foreign (owner : String) (s : PortStatus) : Prop := s.owner ≠ "" ∧ s.owner ≠ owner

/-- What happens to a port between two calls of the session `owner`: the others acquire a port that
nobody owns, start traffic on their own and release it; and traffic comes to its end. -/
inductive Meanwhile (owner : String) : PortStatus → PortStatus → Prop where
  | acquired {active : Bool} {user : String} (h : user ≠ "" ∧ user ≠ owner) :
      Meanwhile owner ⟨"", active⟩ ⟨user, active⟩
  | released {active : Bool} {user : String} (h : user ≠ owner) :
      Meanwhile owner ⟨user, active⟩ ⟨"", active⟩
  | started {user : String} (h : user ≠ "" ∧ user ≠ owner) :
      Meanwhile owner ⟨user, false⟩ ⟨user, true⟩
  | finished {user : String} : Meanwhile owner ⟨user, true⟩ ⟨user, false⟩

/-- What an acquisition may do to a port: with `force` it takes any port, else one nobody owns. -/
def Takes (owner : String) (ports : List Nat) (force : Bool) (t t' : PortTable) (port : Nat) : Prop :=
  port ∈ ports ∧ (force = true ∨ (t port).owner = "") ∧ t' port = { t port with owner := owner }

/-- What stopping or resetting may do to a port. -/
def Stops (ports : List Nat) (t t' : PortTable) (port : Nat) : Prop :=
  port ∈ ports ∧ t' port = { t port with active := false }

/-- What a release may do to a port of the session. -/
def Releases (owner : String) (ports : List Nat) (t t' : PortTable) (port : Nat) : Prop :=
  port ∈ ports ∧ (t port).owner = owner ∧ t' port = { t port with owner := "" }

/-- What a call does to the ports and returns. One that fails may have done a part of its work; a
reply that traffic was stopped does not mean that it has. -/
def Effect (owner : String) (t : PortTable) :
    (c : ClientCall) → Except Exc c.Response → PortTable → Prop
  | .acquire ports force, .ok _, t' =>
    ∀ port, Takes owner ports force t t' port ∨ port ∉ ports ∧ t' port = t port
  | .acquire ports force, .error _, t' =>
    ∀ port, Takes owner ports force t t' port ∨ t' port = t port
  | .stop ports, _, t' => ∀ port, Stops ports t t' port ∨ t' port = t port
  | .reset ports, _, t' => ∀ port, Stops ports t t' port ∨ t' port = t port
  | .release ports, .ok _, t' =>
    ∀ port, Releases owner ports t t' port ∨
      (port ∉ ports ∨ (t port).owner ≠ owner) ∧ t' port = t port
  | .release ports, .error _, t' => ∀ port, Releases owner ports t t' port ∨ t' port = t port
  | .getOwner port, .ok name, t' => name = (t port).owner ∧ t' = t
  | .isActive port, .ok active, t' => active = (t port).active ∧ t' = t
  | _, _, t' => t' = t

/-- A call and the ports before and after it. -/
structure Event where
  call : ClientCall
  succeeded : Bool
  before : PortTable
  after : PortTable

/-- The ports, and the calls so far. -/
structure View where
  ports : PortTable
  history : List Event

/-- Any call is answered after some moves of the other users. -/
def server (owner : String) : Contract Unit ClientCall ClientCall.Response Exc View where
  pre _ _ _ := True
  post v _ c r v' := ∃ t, (∀ port, ReflTransGen (Meanwhile owner) (v.ports port) (t port)) ∧
    Effect owner t c r v'.ports ∧ v'.history = v.history ++ [⟨c, r.toBool, t, v'.ports⟩]

/-! ### What is claimed of a run -/

/-- The call touches no port of another owner. -/
def Event.Authorised (owner : String) (e : Event) : Prop :=
  match e.call with
  | .acquire _ _ => ∀ port, (e.before port).Foreign owner → (e.after port).owner = (e.before port).owner
  | .stop ports => ∀ port ∈ ports, ¬(e.before port).Foreign owner
  | .reset ports => ∀ port ∈ ports, ¬(e.before port).Foreign owner
  | _ => True

/-- The ports were reset, found inactive and released, all of it while the session owned them. -/
def ReleasedIdle (owner : String) (ports : List Nat) (history : List Event) : Prop :=
  ∃ start middle rest reset release, history = start ++ reset :: middle ++ release :: rest ∧
    reset.call = .reset ports ∧ reset.succeeded = true ∧
    release.call = .release ports ∧ release.succeeded = true ∧
    ∀ port ∈ ports, (reset.before port).owner = owner ∧ (release.before port).owner = owner ∧
      (release.before port).active = false ∧ (release.after port).owner = ""

/-- The session owns some of the ports and not others. -/
def Mixed (owner : String) (ports : List Nat) (t : PortTable) : Prop :=
  (∃ port ∈ ports, (t port).owner = owner) ∧ ∃ port ∈ ports, (t port).owner ≠ owner

/-! ### What the other users leave -/

section Meanwhile

variable {owner : String} {s s' : PortStatus}

theorem meanwhile_owned (hname : owner ≠ "") (h : ReflTransGen (Meanwhile owner) s s')
    (hs : s.owner = owner) : s'.owner = owner ∧ (s.active = false → s'.active = false) := by
  induction h with
  | refl => exact ⟨hs, id⟩
  | tail _ hstep ih =>
    obtain ⟨howner, hidle⟩ := ih
    cases hstep with
    | acquired hother => exact absurd howner.symm hname
    | released hother => exact absurd howner hother
    | started hother => exact absurd howner hother.2
    | finished => exact ⟨howner, fun _ => rfl⟩

theorem meanwhile_not_owned (hname : owner ≠ "") (h : ReflTransGen (Meanwhile owner) s s')
    (hs : s.owner ≠ owner) : s'.owner ≠ owner := by
  induction h with
  | refl => exact hs
  | tail _ hstep ih =>
    cases hstep with
    | acquired hother => exact hother.2
    | released hother => exact hname.symm
    | started hother => exact hother.2
    | finished => exact ih

end Meanwhile

section Phases

variable (owner : String) (ports : List Nat)

/-- The session owns all ports. -/
def Held (t : PortTable) : Prop := ∀ port ∈ ports, (t port).owner = owner

/-- The session owns no port. -/
def Unheld (t : PortTable) : Prop := ∀ port ∈ ports, (t port).owner ≠ owner

/-- The calls so far touched no port of another owner. -/
def Kept (v : View) : Prop := ∀ e ∈ v.history, e.Authorised owner

/-- The ports are idle while the session owns them. -/
def Idle (t : PortTable) (port : Nat) : Prop := (t port).owner = owner ∧ (t port).active = false

/-- The ports were reset while the session owned them. -/
def WasReset (history : List Event) : Prop :=
  ∃ start middle reset, history = start ++ reset :: middle ∧ reset.call = .reset ports ∧
    reset.succeeded = true ∧ Held owner ports reset.before

end Phases

section Calls

variable {owner : String} {ports : List Nat} {v v' : View} {l : Unit}

theorem Kept.append {e : Event} (h : Kept owner v) (he : e.Authorised owner)
    (hhistory : v'.history = v.history ++ [e]) : Kept owner v' := by
  intro e' he'
  rw [hhistory, List.mem_append, List.mem_singleton] at he'
  rcases he' with he' | rfl
  · exact h e' he'
  · exact he

theorem WasReset.append {history : List Event} (h : WasReset owner ports history)
    (more : List Event) : WasReset owner ports (history ++ more) := by
  obtain ⟨start, middle, reset, rfl, hreset⟩ := h
  exact ⟨start, middle ++ more, reset, by simp, hreset⟩

theorem ReleasedIdle.append {history : List Event} (h : ReleasedIdle owner ports history)
    (more : List Event) : ReleasedIdle owner ports (history ++ more) := by
  obtain ⟨start, middle, rest, reset, release, rfl, hrest⟩ := h
  exact ⟨start, middle, rest ++ more, reset, release, by simp, hrest⟩

/-- The calls that only look. -/
def ClientCall.Quiet : ClientCall → Prop
  | .connect | .getPortCount | .getOwner _ | .isActive _ | .disconnect => True
  | _ => False

theorem Effect.quiet {t t' : PortTable} {c : ClientCall} {r : Except Exc c.Response} (hc : c.Quiet)
    (h : Effect owner t c r t') : t' = t := by
  cases c with
  | connect => cases r <;> exact h
  | getPortCount => cases r <;> exact h
  | getOwner port =>
    cases r with
    | ok name => exact h.2
    | error e => exact h
  | isActive port =>
    cases r with
    | ok active => exact h.2
    | error e => exact h
  | disconnect => cases r <;> exact h
  | acquire _ _ => exact hc.elim
  | stop _ => exact hc.elim
  | reset _ => exact hc.elim
  | release _ => exact hc.elim

/-- The other users take none of the session's ports. -/
theorem Held.meanwhile {t t' : PortTable} (hname : owner ≠ "")
    (h : ∀ port, ReflTransGen (Meanwhile owner) (t port) (t' port)) (hheld : Held owner ports t) :
    Held owner ports t' :=
  fun port hport => (meanwhile_owned hname (h port) (hheld port hport)).1

theorem Unheld.meanwhile {t t' : PortTable} (hname : owner ≠ "")
    (h : ∀ port, ReflTransGen (Meanwhile owner) (t port) (t' port)) (hunheld : Unheld owner ports t) :
    Unheld owner ports t' :=
  fun port hport => meanwhile_not_owned hname (h port) (hunheld port hport)

theorem Idle.meanwhile {t t' : PortTable} {port : Nat} (hname : owner ≠ "")
    (h : ∀ port, ReflTransGen (Meanwhile owner) (t port) (t' port)) (hidle : Idle owner t port) :
    Idle owner t' port :=
  let ⟨howner, hactive⟩ := meanwhile_owned hname (h port) hidle.1
  ⟨howner, hactive hidle.2⟩

/-- A call that only looks keeps what the other users keep. -/
theorem quiet_post {c : ClientCall} {r : Except Exc c.Response} {J : PortTable → Prop}
    (hstable : ∀ t t', (∀ port, ReflTransGen (Meanwhile owner) (t port) (t' port)) → J t → J t')
    (hc : c.Quiet) (h : (server owner).post v l c r v') (hJ : J v.ports) (hkept : Kept owner v) :
    J v'.ports ∧ Kept owner v' := by
  obtain ⟨t, hmeanwhile, heffect, hhistory⟩ := h
  refine ⟨heffect.quiet hc ▸ hstable _ _ hmeanwhile hJ, hkept.append ?_ hhistory⟩
  cases c with
  | connect => trivial
  | getPortCount => trivial
  | getOwner port => trivial
  | isActive port => trivial
  | disconnect => trivial
  | acquire _ _ => exact hc.elim
  | stop _ => exact hc.elim
  | reset _ => exact hc.elim
  | release _ => exact hc.elim

/-- Stopping and resetting takes no port from the session. -/
theorem Stops.held {t t' : PortTable} {targets : List Nat}
    (h : ∀ port, Stops targets t t' port ∨ t' port = t port) (hheld : Held owner ports t) :
    Held owner ports t' := by
  intro port hport
  rcases h port with ⟨-, heq⟩ | heq
  · rw [heq]
    exact hheld port hport
  · rw [heq]
    exact hheld port hport

end Calls

/-! ### The parts of the function -/

section Parts

variable {owner : String} {ports : List Nat} {s : Locals} {v : View} {l : Unit}

/-- The ports that are not reported active are idle. -/
theorem activePorts_ok (hname : owner ≠ "") (hheld : Held owner ports v.ports)
    (hkept : Kept owner v) :
    (activePorts ports).Ok (server owner) l s (fun r s' v' => s' = s ∧ Held owner ports v'.ports ∧
      Kept owner v' ∧ v.history <+: v'.history ∧ ∀ active, r = .ok active →
        active ⊆ ports ∧ ∀ port ∈ ports, port ∉ active → Idle owner v'.ports port) v := by
  refine (Py.ok_bind _ _).mpr ?_
  refine Py.ok_mapEach (fun rest answers s' v' => s' = s ∧ Held owner ports v'.ports ∧
    Kept owner v' ∧ v.history <+: v'.history ∧ ∃ asked, asked ++ rest = ports ∧
      List.Forall₂ (fun port active => active = false → Idle owner v'.ports port) asked answers)
    ports ⟨rfl, hheld, hkept, List.prefix_rfl, [], rfl, .nil⟩ ?_ ?_
  · rintro answers s' v' ⟨hs, hheld', hkept', hhistory, asked, hasked, hanswers⟩
    rw [List.append_nil] at hasked
    subst hasked
    refine ⟨hs, hheld', hkept', hhistory, fun active hactive => ?_⟩
    obtain rfl := Except.ok.inj hactive
    refine ⟨fun port hport => ?_, fun port hport hnot => ?_⟩
    · obtain ⟨pair, hpair, rfl⟩ := List.mem_map.mp hport
      exact (List.of_mem_zip (List.mem_filter.mp hpair).1).1
    · obtain ⟨i, hi, rfl⟩ := List.getElem_of_mem hport
      have hlength := hanswers.length_eq
      have hidle := hanswers.get hi (hlength ▸ hi)
      refine hidle (Bool.not_eq_true _ ▸ fun htrue => hnot ?_)
      refine List.mem_map.mpr ⟨(asked[i], answers[i]), List.mem_filter.mpr ⟨?_, htrue⟩, rfl⟩
      exact List.mem_iff_getElem.mpr ⟨i, by simp only [List.length_zip]; omega, by simp⟩
  · rintro port rest answers s' v' ⟨hs, hheld', hkept', hhistory, asked, hasked, hanswers⟩
    refine (Py.ok_call _).mpr ⟨trivial, fun r v'' hpost => ?_⟩
    obtain ⟨hheld'', hkept''⟩ :=
      quiet_post (fun _ _ => Held.meanwhile hname) (by trivial) hpost hheld' hkept'
    obtain ⟨t, hmeanwhile, heffect, hmore⟩ := hpost
    have hhistory'' : v.history <+: v''.history := by
      rw [hmore]
      exact hhistory.trans (List.prefix_append _ _)
    cases r with
    | error e => exact ⟨hs, hheld'', hkept'', hhistory'', fun _ h => by cases h⟩
    | ok active =>
      obtain ⟨hactive, hports⟩ := heffect
      have hport : port ∈ ports := hasked ▸ by simp
      refine ⟨hs, hheld'', hkept'', hhistory'', asked ++ [port], by simpa using hasked, ?_⟩
      refine List.rel_append (hanswers.imp fun p b hidle hfalse => ?_) (.cons (fun hfalse => ?_) .nil)
      · exact hports ▸ (hidle hfalse).meanwhile hname hmeanwhile
      · exact ⟨hheld'' port hport, by rw [hports, ← hactive]; exact hfalse⟩

/-- What a run must leave behind. -/
def Good (owner : String) (ports : List Nat) (r : Except Exc ReconcileResult) (v : View) : Prop :=
  Kept owner v ∧ ∀ result, r = .ok result → result.confirmedIdle = true →
    ReleasedIdle owner ports v.history

theorem good_error {e : Exc} (h : Kept owner v) : Good owner ports (.error e) v :=
  ⟨h, fun _ hr => by cases hr⟩

/-- From ports that the session owns, and until the end of the block. -/
theorem idle_ok (hname : owner ≠ "") (hheld : Held owner ports v.ports) (hkept : Kept owner v)
    (owners : List (Nat × String)) (kind : String) :
    (idle ports owners kind).Ok (server owner) l s (fun r _ v' => Good owner ports r v') v := by
  refine Py.Ok.bind (activePorts_ok hname hheld hkept) (fun e s v h => good_error h.2.2.1) ?_
  rintro active s₁ v₁ ⟨rfl, hheld₁, hkept₁, -, hactive⟩
  obtain ⟨hsubset, -⟩ := hactive active rfl
  -- stopping what is active
  refine Py.Ok.bind (P := fun _ _ v' => Held owner ports v'.ports ∧ Kept owner v') ?_
    (fun e s v h => good_error h.2) ?_
  · refine Py.ok_when (fun _ => (Py.ok_call _).mpr ⟨trivial, fun r v₂ hpost => ?_⟩)
      fun _ => ⟨hheld₁, hkept₁⟩
    obtain ⟨t, hmeanwhile, heffect, hmore⟩ := hpost
    have hheldt := hheld₁.meanwhile hname hmeanwhile
    have hstops : ∀ port, Stops active t v₂.ports port ∨ v₂.ports port = t port := by
      cases r <;> exact heffect
    refine ⟨Stops.held hstops hheldt, hkept₁.append ?_ hmore⟩
    exact fun port hport hforeign => hforeign.2 (hheldt port (hsubset hport))
  rintro ⟨⟩ s₂ v₂ ⟨hheld₂, hkept₂⟩
  refine Py.Ok.bind (P := fun r _ v' => Held owner ports v'.ports ∧ Kept owner v' ∧
    (r = .ok () → WasReset owner ports v'.history)) ?_ (fun e s v h => good_error h.2.1) ?_
  · refine (Py.ok_call _).mpr ⟨trivial, fun r v₃ hpost => ?_⟩
    obtain ⟨t, hmeanwhile, heffect, hmore⟩ := hpost
    have hheldt := hheld₂.meanwhile hname hmeanwhile
    have hstops : ∀ port, Stops ports t v₃.ports port ∨ v₃.ports port = t port := by
      cases r <;> exact heffect
    refine ⟨Stops.held hstops hheldt, hkept₂.append ?_ hmore, fun hr => ?_⟩
    · exact fun port hport hforeign => hforeign.2 (hheldt port hport)
    · exact ⟨v₂.history, [], _, hmore, rfl, by rw [hr]; rfl, hheldt⟩
  rintro ⟨⟩ s₃ v₃ ⟨hheld₃, hkept₃, hreset⟩
  refine Py.Ok.bind (activePorts_ok hname hheld₃ hkept₃) (fun e s v h => good_error h.2.2.1) ?_
  rintro stillActive s₄ v₄ ⟨rfl, hheld₄, hkept₄, hhistory, hstill⟩
  split
  · exact ⟨hkept₄, fun result hr hidle => by
      obtain rfl := Except.ok.inj hr
      exact absurd hidle (by simp)⟩
  rename_i hnone
  obtain ⟨-, hidle⟩ := hstill stillActive rfl
  have hidle : ∀ port ∈ ports, Idle owner v₄.ports port := fun port hport =>
    hidle port hport (by rw [not_not.mp hnone]; exact List.not_mem_nil)
  -- the release
  refine Py.Ok.call_bind trivial (fun e v' hpost => ?_) fun _ v' hpost => ?_
  · obtain ⟨t, -, -, hmore⟩ := hpost
    exact good_error (hkept₄.append (by trivial) hmore)
  · obtain ⟨t, hmeanwhile, heffect, hmore⟩ := hpost
    refine ⟨hkept₄.append (by trivial) hmore, fun result _ _ => ?_⟩
    obtain ⟨more, hmore'⟩ := hhistory
    obtain ⟨start, middle, reset, hsplit, hcall, hsucceeded, hbefore⟩ := hreset rfl
    refine ⟨start, middle ++ more, [], reset, ⟨.release ports, true, t, v'.ports⟩, ?_, hcall, hsucceeded, rfl, rfl, ?_⟩
    · rw [hmore, ← hmore', hsplit]
      simp [Except.toBool]
    · intro port hport
      obtain ⟨howner, hactive⟩ := (hidle port hport).meanwhile hname hmeanwhile
      refine ⟨hbefore port hport, howner, hactive, ?_⟩
      rcases heffect port with ⟨-, -, heq⟩ | ⟨hnot, -⟩
      · show (v'.ports port).owner = ""
        rw [heq]
      · rcases hnot with hnot | hnot
        · exact absurd hport hnot
        · exact absurd howner hnot

/-- With `force` only ports of the session are taken, if it owns them all. -/
theorem acquire_authorised {t t' : PortTable} {force : Bool} (hforce : force = true → Held owner ports t)
    (h : ∀ port, Takes owner ports force t t' port ∨ t' port = t port) (port : Nat)
    (hforeign : (t port).Foreign owner) : (t' port).owner = (t port).owner := by
  rcases h port with ⟨hport, hforce' | hfree, -⟩ | heq
  · exact absurd (hforce hforce' port hport) hforeign.2
  · exact absurd hfree hforeign.1
  · rw [heq]

theorem claim_ok (hname : owner ≠ "") (owners : List (Nat × String)) (kind : String)
    (hkept : Kept owner v)
    (hforce : (owners.any fun p => p.2 = owner) = true → Held owner ports v.ports) :
    (claim owner ports owners kind).Ok (server owner) l s (fun r _ v' => Good owner ports r v') v := by
  unfold claim
  split
  · exact ⟨hkept, fun result hr hidle => by
      obtain rfl := Except.ok.inj hr
      exact absurd hidle (by simp)⟩
  refine Py.Ok.call_bind trivial (fun e v' hpost => ?_) fun _ v' hpost => ?_
  · obtain ⟨t, hmeanwhile, heffect, hmore⟩ := hpost
    refine good_error (hkept.append ?_ hmore)
    exact acquire_authorised (fun h => (hforce h).meanwhile hname hmeanwhile) heffect
  · obtain ⟨t, hmeanwhile, heffect, hmore⟩ := hpost
    have hheld : Held owner ports v'.ports := by
      intro port hport
      rcases heffect port with ⟨-, -, heq⟩ | ⟨hnot, -⟩
      · rw [heq]
      · exact absurd hport hnot
    refine idle_ok hname hheld (hkept.append ?_ hmore) owners kind
    exact acquire_authorised (fun h => (hforce h).meanwhile hname hmeanwhile) fun port =>
      (heffect port).imp_right And.right

/-- The reads, while the other users keep `J`. -/
theorem body_ok {J : PortTable → Prop} {P : String → Prop} (kind : String)
    (hstable : ∀ t t', (∀ port, ReflTransGen (Meanwhile owner) (t port) (t' port)) → J t → J t')
    (hread : ∀ t port, J t → port ∈ ports → P (t port).owner) (hJ : J v.ports) (hkept : Kept owner v)
    (hclaim : ∀ owners s v, J v.ports → Kept owner v → (∀ p ∈ owners, P p.2) →
      (claim owner ports owners kind).Ok (server owner) l s (fun r _ v' => Good owner ports r v') v) :
    (body owner ports kind).Ok (server owner) l s (fun r _ v' => Good owner ports r v') v := by
  have hquiet : ∀ (c : ClientCall), c.Quiet →
      (request c).Safe (server owner) fun _ v => J v.ports ∧ Kept owner v := fun c hc =>
    Py.safe_call c fun _ v hv => ⟨trivial, fun r v' hpost => quiet_post hstable hc hpost hv.1 hv.2⟩
  refine Py.Ok.bind (hquiet .connect trivial l s v ⟨hJ, hkept⟩) (fun e s v h => good_error h.2) ?_
  intro _ s₁ v₁ hv₁
  refine (Py.ok_assign_bind _ _).mpr ?_
  have hcounts : (Py.anyEach (fun port => do
      let count : Nat ← request .getPortCount
      pure (decide (count ≤ port)) : Nat → Client Bool) ports).Safe (server owner)
        fun _ v => J v.ports ∧ Kept owner v :=
    Py.Safe.anyEach fun port _ => (hquiet .getPortCount trivial).bind fun count => Py.safe_pure _
  refine Py.Ok.bind (hcounts l _ v₁ hv₁) (fun e s v h => good_error h.2) ?_
  rintro invalid s₂ v₂ ⟨hJ₂, hkept₂⟩
  split
  · exact ⟨hkept₂, fun result hr hidle => by
      obtain rfl := Except.ok.inj hr
      exact absurd hidle (by simp)⟩
  refine Py.Ok.bind (P := fun r _ v' => J v'.ports ∧ Kept owner v' ∧
    ∀ owners, r = .ok owners → ∀ p ∈ owners, P p.2) ?_ (fun e s v h => good_error h.2.1)
    fun owners s v h => hclaim owners s v h.1 h.2.1 (h.2.2 owners rfl)
  refine Py.ok_mapEach (fun rest owners s v => rest ⊆ ports ∧ J v.ports ∧ Kept owner v ∧
    ∀ p ∈ owners, P p.2) ports ⟨List.Subset.refl ports, hJ₂, hkept₂, by simp⟩ ?_ ?_
  · rintro owners s v ⟨-, hJ, hkept, howners⟩
    exact ⟨hJ, hkept, fun owners' h => Except.ok.inj h ▸ howners⟩
  · rintro port rest owners s v ⟨hsubset, hJ, hkept, howners⟩
    refine Py.Ok.call_bind trivial (fun e v' hpost => ?_) fun name v' hpost => ?_
    · obtain ⟨hJ', hkept'⟩ := quiet_post hstable (by trivial) hpost hJ hkept
      exact ⟨hJ', hkept', fun _ h => by cases h⟩
    · obtain ⟨hJ', hkept'⟩ := quiet_post hstable (by trivial) hpost hJ hkept
      obtain ⟨t, -, ⟨hname, hports⟩, -⟩ := hpost
      refine ⟨fun p hp => hsubset (List.mem_cons_of_mem _ hp), hJ', hkept', fun p hp => ?_⟩
      rcases List.mem_append.mp hp with hp | hp
      · exact howners p hp
      · rw [List.mem_singleton.mp hp]
        show P name
        rw [hname, ← hports]
        exact hread _ _ hJ' (hsubset List.mem_cons_self)

/-- The `finally` block takes nothing back. -/
theorem finalizer_safe (r : Except Exc ReconcileResult) :
    (finalizer ports).Safe (server owner) fun _ v => Good owner ports r v := by
  have hquietly : ∀ c : ClientCall, (∀ b t t', Event.Authorised owner ⟨c, b, t, t'⟩) →
      (quietly c).Safe (server owner) fun _ v => Good owner ports r v := by
    intro c hc
    refine Py.Safe.tryExcept (Py.Safe.bind (Py.safe_call c fun _ v hv => ?_) fun _ => Py.safe_pure ())
      fun _ => Py.safe_pure ()
    refine ⟨trivial, fun answer v' hpost => ?_⟩
    obtain ⟨t, -, -, hmore⟩ := hpost
    refine ⟨hv.1.append (hc _ _ _) hmore, fun result hresult hidle => ?_⟩
    rw [hmore]
    exact (hv.2 result hresult hidle).append _
  refine Py.Safe.bind Py.safe_locals fun s => Py.Safe.bind (Py.Safe.when ?_ _) fun _ =>
    Py.Safe.when ?_ _
  · exact hquietly (.release ports) fun _ _ _ => trivial
  · exact hquietly .disconnect fun _ _ _ => trivial

theorem reconcileSync_ok (hname : owner ≠ "") (kind : String)
    (hmixed : ¬Mixed owner ports v.ports) (hkept : Kept owner v) :
    (reconcileSync owner ports kind).Ok (server owner) l s (fun r _ v' => Good owner ports r v') v := by
  refine (Py.ok_tryFinally _ _).mpr (Py.Ok.mono (Q := fun r _ v' => Good owner ports r v') ?_ ?_)
  · by_cases hsome : ∃ port ∈ ports, (v.ports port).owner = owner
    · have hheld : Held owner ports v.ports := fun port hport =>
        not_not.mp fun hnot => hmixed ⟨hsome, port, hport, hnot⟩
      exact body_ok (P := fun _ => True) kind (fun _ _ => Held.meanwhile hname) (fun _ _ _ _ => trivial)
        hheld hkept fun owners s v hheld hkept _ => claim_ok hname owners kind hkept fun _ => hheld
    · have hunheld : Unheld owner ports v.ports := fun port hport h => hsome ⟨port, hport, h⟩
      refine body_ok (P := fun name => name ≠ owner) kind (fun _ _ => Unheld.meanwhile hname)
        (fun t port h hport => h port hport) hunheld hkept fun owners s v hunheld hkept howners =>
          claim_ok hname owners kind hkept fun hany => ?_
      obtain ⟨p, hp, hforce⟩ := List.any_eq_true.mp hany
      exact absurd (of_decide_eq_true hforce) (howners p hp)
  · intro r s' v' hgood
    refine (finalizer_safe r l s' v' hgood).mono ?_
    rintro (e | u) s'' v'' h
    · exact good_error h.1
    · exact h

end Parts

theorem ownerName_ne (username sessionId : String) : ownerName username sessionId ≠ "" := by
  intro h
  have hlist := congrArg String.toList h
  simp [ownerName] at hlist

/-! ### Mixed ownership -/

section Mixed

variable {owner : String} {ports : List Nat}

/-- The view after a call. -/
def View.next (v : View) (c : ClientCall) (succeeded : Bool) (before after : PortTable) : View :=
  ⟨after, v.history ++ [⟨c, succeeded, before, after⟩]⟩

theorem server_answers (v : View) (l : Unit) (c : ClientCall) :
    ∃ r v', (server owner).post v l c r v' := by
  refine ⟨.error (.exception ""), v.next c false v.ports v.ports, v.ports, fun _ => .refl, ?_, rfl⟩
  cases c with
  | acquire _ _ => exact fun port => .inr rfl
  | stop _ => exact fun port => .inr rfl
  | reset _ => exact fun port => .inr rfl
  | release _ => exact fun port => .inr rfl
  | connect => rfl
  | getPortCount => rfl
  | getOwner _ => rfl
  | isActive _ => rfl
  | disconnect => rfl

theorem run_history {α : Type} {p : Prog Unit ClientCall ClientCall.Response Exc α} {v v' : View}
    {a : α} (h : Prog.Run (server owner) p v a v') : v.history <+: v'.history := by
  refine h.mono (R := fun v v' => v.history <+: v'.history) (fun _ => List.prefix_rfl)
    (fun _ _ _ => List.IsPrefix.trans) fun v l c r v' hpost => ?_
  obtain ⟨t, -, -, hmore⟩ := hpost
  rw [hmore]
  exact List.prefix_append _ _

/-- Nothing moves while the session looks. -/
theorem quiet_run {c : ClientCall} {a : c.Response} {l : Unit} {s : Locals} (v : View)
    (h : Effect owner v.ports c (.ok a) v.ports) :
    Prog.Run (server owner) (request c l s) v (.ok a, s) (v.next c true v.ports v.ports) :=
  Py.run_call ⟨v.ports, fun _ => .refl, h, rfl⟩

/-- The others release their ports before the owners are read. -/
def freed (owner : String) (t : PortTable) : PortTable := fun port =>
  if (t port).owner = owner then t port else { t port with owner := "" }

theorem freed_meanwhile (t : PortTable) (port : Nat) :
    ReflTransGen (Meanwhile owner) (t port) (freed owner t port) := by
  unfold freed
  split
  · exact .refl
  · exact .single (.released ‹_›)

/-- One of them takes a free port after the owners are read. -/
def retaken (user : String) (port : Nat) (t : PortTable) : PortTable :=
  Function.update t port { t port with owner := user }

theorem retaken_meanwhile {user : String} (huser : user ≠ "" ∧ user ≠ owner) {free : Nat}
    {t : PortTable} (hfree : (t free).owner = "") (port : Nat) :
    ReflTransGen (Meanwhile owner) (t port) (retaken user free t port) := by
  unfold retaken
  by_cases hport : port = free
  · subst hport
    rw [Function.update_self]
    have hstatus : t port = ⟨"", (t port).active⟩ := by
      rw [← hfree]
    rw [hstatus]
    exact .single (.acquired huser)
  · rw [Function.update_of_ne hport]

/-- An owner that is not the session. -/
theorem exists_other (owner : String) : ∃ user : String, user ≠ "" ∧ user ≠ owner := by
  by_cases h : owner = "a"
  · exact ⟨"b", by decide, by rw [h]; decide⟩
  · exact ⟨"a", by decide, fun heq => h heq.symm⟩

/-- The server has all ports. -/
theorem counts_run {s : Locals} (v : View) :
    ∃ v', v'.ports = v.ports ∧ Prog.Run (server owner) (Py.anyEach (fun port => (do
      let count : Nat ← request .getPortCount
      pure (decide (count ≤ port)) : Client Bool)) ports () s) v (.ok false, s) v' := by
  refine Py.run_anyEach (J := fun v' => v'.ports = v.ports) (fun port v' hv' => ?_) ports v rfl
  refine ⟨v'.next .getPortCount true v'.ports v'.ports, hv', ?_⟩
  refine Py.run_bind (quiet_run (c := .getPortCount) (a := (port + 1 : Nat)) v' rfl) ?_
  have hcount : decide (port + 1 ≤ port) = false := decide_eq_false (by omega)
  show Prog.Run _ (.ret ((.ok (decide (port + 1 ≤ port)) : Except Exc Bool), s)) _ _ _
  rw [hcount]
  exact .ret _ _

theorem owners_run {s : Locals} (v : View) :
    ∃ v', v'.ports = v.ports ∧ Prog.Run (server owner) (Py.mapEach (fun port => (do
      let name : String ← request (.getOwner port)
      pure (port, name) : Client (Nat × String))) ports () s) v
        ((.ok (ports.map fun port => (port, (v.ports port).owner)) : Except Exc (List (Nat × String))),
          s) v' := by
  refine Py.run_mapEach (J := fun v' => v'.ports = v.ports) (fun port v' hv' => ?_) ports v rfl
  refine ⟨v'.next (.getOwner port) true v'.ports v'.ports, hv', ?_⟩
  have hread : Prog.Run (server owner) (request (.getOwner port) () s) v'
      ((.ok (v.ports port).owner : Except Exc String), s) (v'.next (.getOwner port) true v'.ports v'.ports) :=
    quiet_run v' ⟨by rw [hv'], rfl⟩
  exact Py.run_bind hread (Prog.Run.ret _ _)

/-- A port that is free when it is read is taken by force from whoever acquired it since, if the
session owns another one. -/
theorem claim_run (kind : String) {s : Locals} {v : View} {held free : Nat}
    (hheld : held ∈ ports ∧ (v.ports held).owner = owner)
    (hfree : free ∈ ports ∧ (v.ports free).owner = "")
    (hothers : ∀ port, (v.ports port).owner = "" ∨ (v.ports port).owner = owner) :
    ∃ x v', Prog.Run (server owner) (claim owner ports
      (ports.map fun port => (port, (v.ports port).owner)) kind () s) v x v' ∧ ¬Kept owner v' := by
  obtain ⟨user, huser⟩ := exists_other owner
  have hread : ¬∃ p ∈ ports.map fun port => (port, (v.ports port).owner), p.2 ≠ "" ∧ p.2 ≠ owner := by
    rintro ⟨p, hp, hne, hother⟩
    obtain ⟨port, -, rfl⟩ := List.mem_map.mp hp
    exact (hothers port).elim hne hother
  have hforce : ((ports.map fun port => (port, (v.ports port).owner)).any fun p => p.2 = owner) = true :=
    List.any_eq_true.mpr ⟨_, List.mem_map_of_mem hheld.1, decide_eq_true hheld.2⟩
  let taken : PortTable := fun port =>
    if port ∈ ports then { retaken user free v.ports port with owner := owner }
    else retaken user free v.ports port
  let event : Event := ⟨.acquire ports true, true, retaken user free v.ports, taken⟩
  have hpost : (server owner).post v () (.acquire ports true) (.ok ())
      ⟨taken, v.history ++ [event]⟩ := by
    refine ⟨retaken user free v.ports, retaken_meanwhile huser hfree.2, fun port => ?_, rfl⟩
    by_cases hport : port ∈ ports
    · exact .inl ⟨hport, .inl rfl, if_pos hport⟩
    · exact .inr ⟨hport, if_neg hport⟩
  unfold claim
  rw [if_neg hread, hforce]
  obtain ⟨x, v', hrun⟩ := Prog.exists_run (S := server owner) server_answers
    ((Py.assign (fun s => { s with acquired := true }) >>= fun _ => idle ports
      (ports.map fun port => (port, (v.ports port).owner)) kind) () s) ⟨taken, v.history ++ [event]⟩
  refine ⟨x, v', Py.run_bind (Py.run_call hpost) hrun, fun hkept => ?_⟩
  have hevent : event.Authorised owner := hkept event ((run_history hrun).subset (by simp))
  have hforeign : (retaken user free v.ports free).Foreign owner := by
    rw [retaken, Function.update_self]
    exact huser
  have hstolen := hevent free hforeign
  change (taken free).owner = (retaken user free v.ports free).owner at hstolen
  rw [show (taken free).owner = owner by simp only [taken, if_pos hfree.1]] at hstolen
  exact hforeign.2 hstolen.symm

/-- From mixed ownership, some run takes a port of another owner. -/
theorem mixed_run (kind : String) {t : PortTable} (hmixed : Mixed owner ports t) :
    ∃ x v', Prog.Run (server owner) (reconcileSync owner ports kind () {}) ⟨t, []⟩ x v' ∧
      ¬Kept owner v' := by
  obtain ⟨⟨held, hheldmem, hheld⟩, free, hfreemem, hfree⟩ := hmixed
  have hconnect : (server owner).post ⟨t, []⟩ () .connect (.ok ())
      ⟨freed owner t, [⟨.connect, true, freed owner t, freed owner t⟩]⟩ :=
    ⟨freed owner t, freed_meanwhile t, rfl, rfl⟩
  obtain ⟨v₂, hv₂, hcounts⟩ := @counts_run owner ports ⟨false, true⟩
    ⟨freed owner t, [⟨.connect, true, freed owner t, freed owner t⟩]⟩
  obtain ⟨v₃, hv₃, howners⟩ := @owners_run owner ports ⟨false, true⟩ v₂
  have hports : v₃.ports = freed owner t := hv₃.trans hv₂
  obtain ⟨x, v', hclaim, hnot⟩ := @claim_run owner ports kind ⟨false, true⟩ v₃ held free
    ⟨hheldmem, by rw [hports, freed, if_pos hheld, hheld]⟩
    ⟨hfreemem, by rw [hports, freed, if_neg hfree]⟩ fun port => by
      rw [hports, freed]
      split
      · exact .inr ‹_›
      · exact .inl rfl
  have hbody : Prog.Run (server owner) (body owner ports kind () {}) ⟨t, []⟩ x v' := by
    refine Py.run_bind (Py.run_call hconnect) (Py.run_bind (a := ()) (.ret _ _) ?_)
    refine Py.run_bind hcounts (Py.run_bind howners ?_)
    rw [hv₃] at hclaim
    exact hclaim
  obtain ⟨r, s⟩ := x
  obtain ⟨⟨r', s'⟩, v'', hfinal⟩ := Prog.exists_run (S := server owner) server_answers
    (finalizer ports () s) v'
  obtain ⟨y, hrun⟩ := Py.run_tryFinally hbody hfinal
  refine ⟨y, v'', hrun, fun hkept => hnot fun e he => hkept e ?_⟩
  exact (run_history hfinal).subset he

end Mixed

/-- Every run from a state of the ports is in order, except from mixed ownership. -/
theorem reconcile_safe_iff (username sessionId kind : String) (ports : List Nat) (t : PortTable) :
    (∀ r s v, Prog.Run (server (ownerName username sessionId))
        (reconcileSync (ownerName username sessionId) ports kind () {}) ⟨t, []⟩ (r, s) v →
      Kept (ownerName username sessionId) v ∧ ∀ result, r = .ok result →
        result.confirmedIdle = true → ReleasedIdle (ownerName username sessionId) ports v.history) ↔
      ¬Mixed (ownerName username sessionId) ports t := by
  have hname := ownerName_ne username sessionId
  constructor
  · intro h hmixed
    obtain ⟨⟨r, s⟩, v, hrun, hnot⟩ := mixed_run kind hmixed
    exact hnot (h r s v hrun).1
  · intro hmixed r s v hrun
    exact hrun.sound (reconcileSync_ok (v := ⟨t, []⟩) hname kind hmixed fun e he => by cases he)

/-- The session owns one of two ports; the other is free. -/
def halfOwned : PortTable := fun port =>
  if port = 0 then ⟨ownerName "trex-cli" "1", true⟩ else ⟨"", false⟩

theorem not_kept_halfOwned :
    ∃ r s v, Prog.Run (server (ownerName "trex-cli" "1"))
        (reconcileSync (ownerName "trex-cli" "1") [0, 1] "StatelessTraffic" () {}) ⟨halfOwned, []⟩ (r, s) v ∧
      ¬Kept (ownerName "trex-cli" "1") v := by
  have hmixed : Mixed (ownerName "trex-cli" "1") [0, 1] halfOwned :=
    ⟨⟨0, by simp, rfl⟩, 1, by simp, fun h => ownerName_ne _ _ h.symm⟩
  obtain ⟨⟨r, s⟩, v, hrun, hnot⟩ := mixed_run "StatelessTraffic" hmixed
  exact ⟨r, s, v, hrun, hnot⟩

end TrexCli.Reconcile
