import TrexCli.Engine.Adapters

/-!
# The sessions of an engine

What an agent has to know of a session is four facts (`SessionView`): it is in the dictionary, its
traffic has been stopped, it has been taken down, and a call to end it has failed. `Lawful` says how
the operations of an engine move them, whatever the client answers, and ties them to the record of
the client's calls (`Tied`). Both engines are lawful, and differ in `AdapterKind`.
-/

namespace TrexCli.Engine

open Coroutine Coroutine.Py

inductive AdapterKind where
  | stl | astf
  deriving DecidableEq

/-- What is known of a session. -/
structure SessionView where
  /-- The dictionary has the session. -/
  live : Bool := false
  stopped : Bool := false
  released : Bool := false
  faulty : Bool := false
  deriving DecidableEq

namespace SessionView

/-- After `run`, which may have stopped the traffic at its end. -/
def run (v : SessionView) (stopped : Bool) : SessionView := { v with stopped }

/-- After `stop`. -/
def stop (v : SessionView) (r : Except Exc Unit) : SessionView :=
  if v.live then
    match r with
    | .ok _ => { v with stopped := true }
    | .error _ => { v with faulty := true }
  else v

/-- After `cleanup`. -/
def cleanup (kind : AdapterKind) (v : SessionView) (r : Except Exc Unit) : SessionView :=
  if v.live then
    match r with
    | .ok _ => { v with live := false, released := v.stopped || v.released }
    | .error _ => { v with live := kind = .stl, faulty := true }
  else v

end SessionView

/-- What `stop` answers when there is no session. -/
def StopsMissing : AdapterKind → Except Exc Unit → Prop
  | .stl, r => r = .ok ()
  | .astf, r => ∃ e, r = .error e

/-- The view says nothing that the dictionary and the record do not show. -/
structure Tied {S : Type} (Fits : S → List Event → SessionView → Prop) (s : Option S)
    (log : List Event) (v : SessionView) : Prop where
  live : v.live = s.isSome
  stopped : v.stopped = true → Quieted log
  released : v.released = true → Released log
  faulty : v.faulty = true → Failed log
  fits : ∀ x, s = some x → Fits x log v

/-- What `prepare` has done when it raises: nothing, or its last calls were to release the ports that
it had acquired, and to disconnect. -/
inductive RolledBack : List Event → Prop where
  | untouched : RolledBack []
  | unacquired (during : List Event) (r : Except Exc Unit)
      (h : ∀ e ∈ during, e.1.acquires = true → ∃ x, e.2 = .error x) :
      RolledBack (during ++ [⟨.disconnect, r⟩])
  | released (during : List Event) (ports : List Nat) (r r' : Except Exc Unit)
      (h : ∀ e ∈ during, e.1.acquires = true → e.1 = .acquire ports) :
      RolledBack (during ++ [⟨.release ports, r⟩, ⟨.disconnect, r'⟩])
  | releasedAll (during : List Event) (r r' : Except Exc Unit)
      (h : ∀ e ∈ during, e.1.acquires = true → e.1 = .acquireAll) :
      RolledBack (during ++ [⟨.releaseAll, r⟩, ⟨.disconnect, r'⟩])

/-- The outcome of `prepare`. -/
def Prepared {S : Type} (Fits : S → List Event → SessionView → Prop) (r : Except Exc S)
    (log : List Event) : Prop :=
  match r with
  | .ok x => Fits x log { live := true }
  | .error e => e.isException = true ∧ RolledBack log

/-- The operation on one session keeps the others, and raises only exceptions. -/
structure OnSession {S α : Type} (handle : RunHandle) (sessions : Sessions S) (r : Except Exc α)
    (sessions' : Sessions S) : Prop where
  others : ∀ h, h ≠ handle → sessions' h = sessions h
  raises : ∀ e, r = .error e → e.isException = true

/-- How the operations of an engine move its sessions, whatever the client answers. -/
structure Lawful (A : Adapter) (kind : AdapterKind) where
  /-- What a session in the dictionary says of itself. -/
  Fits : A.Session → List Event → SessionView → Prop
  prepare : ∀ document, (A.prepare document).Ok (recording Raised) () false
    (fun r _ log => Prepared Fits r log) []
  warmup : ∀ handle sessions log v, Tied Fits (sessions handle) log v →
    (A.warmup handle).Ok (recording Raised) () sessions (fun r sessions' log' =>
      OnSession handle sessions r sessions' ∧ Tied Fits (sessions' handle) log' v) log
  run : ∀ handle sessions log v, Tied Fits (sessions handle) log v → v.stopped = false →
    v.released = false → (A.run handle).Ok (recording Raised) () sessions (fun r sessions' log' =>
      OnSession handle sessions r sessions' ∧
        ∃ stopped, Tied Fits (sessions' handle) log' (v.run stopped)) log
  stop : ∀ handle force sessions log v, Tied Fits (sessions handle) log v →
    (A.stop handle force).Ok (recording Raised) () sessions (fun r sessions' log' =>
      OnSession handle sessions r sessions' ∧ (v.live = false → StopsMissing kind r) ∧
        Tied Fits (sessions' handle) log' (v.stop r)) log
  cleanup : ∀ handle sessions log v, Tied Fits (sessions handle) log v →
    (A.cleanup handle).Ok (recording Raised) () sessions (fun r sessions' log' =>
      OnSession handle sessions r sessions' ∧ (v.live = false → r = .ok ()) ∧
        Tied Fits (sessions' handle) log' (v.cleanup kind r)) log

/-! ### Rules -/

section Rules

variable {S σ α β : Type} {s : σ} {log : List Event}

theorem Tied.gone {Fits : S → List Event → SessionView → Prop} {x : Option S} {v : SessionView}
    (h : Tied Fits x log v) (hlive : v.live = false) : x = none := by
  have hsome := h.live
  rw [hlive] at hsome
  simpa using hsome.symm

theorem OnSession.refl {handle : RunHandle} {sessions : Sessions S} {r : Except Exc α}
    (hr : ∀ e, r = .error e → e.isException = true) : OnSession handle sessions r sessions :=
  ⟨fun _ _ => rfl, hr⟩

/-- The rule of a wrapped computation: only its exception changes. -/
theorem ok_wrapping {wrap : Exc → Exc} {m : Client σ α}
    {Q : Except Exc α → σ → List Event → Prop}
    (h : m.Ok (recording Raised) () s (fun r s' log' => match r with
      | .ok a => Q (.ok a) s' log'
      | .error e => Q (.error (wrap e)) s' log') log) :
    (wrapping wrap m).Ok (recording Raised) () s Q log := by
  refine (ok_tryExcept _ _).mpr (h.mono ?_)
  rintro (e | a) s' log' hQ
  · exact hQ
  · exact hQ

theorem ok_wrappingOthers {wrap : Exc → Exc} {m : Client σ α}
    {Q : Except Exc α → σ → List Event → Prop}
    (h : m.Ok (recording Raised) () s (fun r s' log' => match r with
      | .ok a => Q (.ok a) s' log'
      | .error e => Q (.error e) s' log' ∧ Q (.error (wrap e)) s' log') log) :
    (wrappingOthers wrap m).Ok (recording Raised) () s Q log := by
  refine (ok_tryExcept _ _).mpr (h.mono ?_)
  rintro (e | a) s' log' hQ
  · simp only [handled_error]
    split
    · exact hQ.1
    · exact hQ.2
  · exact hQ

/-- The rule of a call whose exception is swallowed. -/
theorem ok_quietly_bind {c : ClientCall} {f : Unit → Client σ α}
    {Q : Except Exc α → σ → List Event → Prop}
    (h : ∀ r, (f ()).Ok (recording Raised) () s Q (log ++ [⟨c, r⟩])) :
    (quietly c >>= f).Ok (recording Raised) () s Q log := by
  refine (ok_bind _ _).mpr ((ok_tryExcept _ _).mpr (Ok.call_bind_recording ?_ ?_))
  · exact fun e _ => h (.error e)
  · exact fun a _ => h (.ok a)

/-- The rule of `_session`. -/
theorem ok_session_bind {message : String} {handle : RunHandle} {sessions : Sessions S}
    {f : S → Client (Sessions S) α} {Q : Except Exc α → Sessions S → List Event → Prop}
    (hlive : ∀ x, sessions handle = some x → (f x).Ok (recording Raised) () sessions Q log)
    (hgone : sessions handle = none → Q (.error (sessionLost message)) sessions log) :
    (session message handle >>= f).Ok (recording Raised) () sessions Q log := by
  refine (ok_bind _ _).mpr ?_
  unfold session
  refine (ok_locals_bind _).mpr ?_
  cases hs : sessions handle with
  | none => exact hgone hs
  | some x => exact hlive x hs

/-- The rule of a check. -/
theorem ok_check_bind {c : Prop} [Decidable c] {e : Exc} {f : Unit → Client σ α}
    {Q : Except Exc α → σ → List Event → Prop} (hc : c → Q (.error e) s log)
    (hf : ¬c → (f ()).Ok (recording Raised) () s Q log) :
    (when c (raise e) >>= f).Ok (recording Raised) () s Q log :=
  (ok_bind _ _).mpr (ok_when hc hf)

/-- What an interrupted `prepare` leaves to `rollingBack`. -/
def Unrolled (acquire : ClientCall) (acquired : Bool) (log : List Event) : Prop :=
  ∀ e ∈ log, e.1.acquires = true →
    e.1 = acquire ∧ (acquired = false → ∃ x, e.2 = .error x)

theorem Unrolled.append {acquire : ClientCall} {acquired : Bool} {more : List Event}
    (h : Unrolled acquire acquired log) (hmore : ∀ e ∈ more, e.1.acquires = false) :
    Unrolled acquire acquired (log ++ more) := by
  intro e he hacquires
  obtain he | he := List.mem_append.mp he
  · exact h e he hacquires
  · rw [hmore e he] at hacquires
    cases hacquires

theorem Unrolled.call {acquire : ClientCall} {acquired : Bool} {c : ClientCall}
    (h : Unrolled acquire acquired log) (hc : c.acquires = false) (r : Except Exc c.Response) :
    Unrolled acquire acquired (log ++ [⟨c, r⟩]) := by
  refine h.append fun e he => ?_
  obtain rfl := List.mem_singleton.mp he
  exact hc

theorem unrolled_nil (acquire : ClientCall) : Unrolled acquire false [] := by
  simp [Unrolled]

/-- The acquiring call of `prepare`. -/
theorem Unrolled.acquire {acquire : ClientCall} (h : Unrolled acquire false log) (acquired : Bool)
    (r : Except Exc acquire.Response) (hr : acquired = false → ∃ x, r = .error x) :
    Unrolled acquire acquired (log ++ [⟨acquire, r⟩]) := by
  intro e he hacquires
  obtain he | he := List.mem_append.mp he
  · obtain ⟨heq, herror⟩ := h e he hacquires
    exact ⟨heq, fun _ => herror rfl⟩
  · obtain rfl := List.mem_singleton.mp he
    exact ⟨rfl, hr⟩

theorem ok_rollingBack (acquire release : ClientCall) {m : Client Bool α}
    {Q : Except Exc α → Bool → List Event → Prop}
    (hreleased : ∀ during r r', (∀ e ∈ during, e.1.acquires = true → e.1 = acquire) →
      RolledBack (during ++ [⟨release, r⟩, ⟨.disconnect, r'⟩]))
    (hQ : ∀ e b log, e.isException = true → RolledBack log → Q (.error e) b log) {b : Bool}
    (h : m.Ok (recording Raised) () b (fun r b' log' => match r with
      | .ok a => Q (.ok a) b' log'
      | .error e => e.isException = true ∧ Unrolled acquire b' log') log) :
    (rollingBack release m).Ok (recording Raised) () b Q log := by
  refine (ok_tryExcept _ _).mpr (h.mono ?_)
  rintro (e | a) b' log' hm
  · obtain ⟨he, hunrolled⟩ := hm
    refine (ok_locals_bind _).mpr ?_
    cases b' with
    | true =>
      refine ok_quietly_bind fun r => ok_quietly_bind fun r' => hQ e true _ he ?_
      rw [List.append_assoc]
      exact hreleased log' r r' fun ev hev hacquires => (hunrolled ev hev hacquires).1
    | false =>
      refine ok_quietly_bind fun r => hQ e false _ he ?_
      exact .unacquired log' r fun ev hev hacquires => (hunrolled ev hev hacquires).2 rfl
  · exact hm

/-- A call that concerns neither the acquired ports nor the traffic. -/
theorem Tied.quiet {Fits : S → List Event → SessionView → Prop} {x : Option S} {more : List Event}
    {v : SessionView} (h : Tied Fits x log v) (hstill : Still more)
    (hkeep : ∀ e ∈ more, e.1.acquires = false)
    (hfits : ∀ y, x = some y → Fits y (log ++ more) v) : Tied Fits x (log ++ more) v where
  live := h.live
  stopped hv := (h.stopped hv).append hstill hkeep
  released hv := (h.released hv).append hstill
  faulty hv := (h.faulty hv).append_left
  fits := hfits

/-- After a run, which may have started traffic and changed the session. -/
theorem Tied.run {Fits : S → List Event → SessionView → Prop} {x x' : Option S} {more : List Event}
    {v : SessionView} (h : Tied Fits x log v) (hx : x'.isSome = x.isSome)
    (hreleased : v.released = false) {stopped : Bool}
    (hquiet : stopped = true → Quieted (log ++ more))
    (hfits : ∀ y, x' = some y → Fits y (log ++ more) (v.run stopped)) :
    Tied Fits x' (log ++ more) (v.run stopped) where
  live := h.live.trans hx.symm
  stopped := hquiet
  released hv := by
    have htrue : v.released = true := hv
    rw [hreleased] at htrue
    cases htrue
  faulty hv := (h.faulty hv).append_left
  fits := hfits

end Rules

end TrexCli.Engine
