import TrexCli.Engine.Sessions

/-!
# Both engines are lawful

`EndsBy m P` holds of a computation that makes only calls of `stop` and `cleanup` and leaves the local
variables alone: it raises only when such a call has failed, and otherwise its calls satisfy `P`.
-/

namespace TrexCli.Engine

open Coroutine Coroutine.Py

variable {σ α β : Type}

/-! ### Ends of a session -/

/-- The calls since `log` are all to end the session. -/
def Ending (log : List Event) (P : α → List Event → Prop) (r : Except Exc α) (log' : List Event) :
    Prop :=
  ∃ more, log' = log ++ more ∧ (∀ e ∈ more, e.1.ends = true) ∧
    match r with
    | .ok a => P a more
    | .error e => e.isException = true ∧ Failed more

def EndsBy (m : Client σ α) (P : α → List Event → Prop) : Prop :=
  ∀ s log, m.Ok (recording Raised) () s (fun r s' log' => s' = s ∧ Ending log P r log') log

theorem ClientCall.ends_apart {c : ClientCall} (h : c.ends = true) :
    c.starts = false ∧ c.acquires = false := by
  cases c with
  | isActive | stop | reset | removeAllStreams | release | disconnect | stopAll | clearProfile
  | releaseAll | timesOut => exact ⟨rfl, rfl⟩
  | _ => cases h

theorem still_of_ends {log : List Event} (h : ∀ e ∈ log, e.1.ends = true) : Still log :=
  fun e he => (ClientCall.ends_apart (h e he)).1

theorem keeps_of_ends {log : List Event} (h : ∀ e ∈ log, e.1.ends = true) :
    ∀ e ∈ log, e.1.acquires = false :=
  fun e he => (ClientCall.ends_apart (h e he)).2

namespace EndsBy

variable {m : Client σ α} {f : α → Client σ β} {P P' : α → List Event → Prop}

theorem pure {a : α} (h : P a []) : EndsBy (Pure.pure a : Client σ α) P := by
  intro s log
  refine ⟨rfl, [], ?_, ?_, h⟩
  · rw [List.append_nil]
  · simp

theorem request (c : ClientCall) (hc : c.ends = true) {P : c.Response → List Event → Prop}
    (h : ∀ a, P a [⟨c, .ok a⟩]) : EndsBy (Engine.request c : Client σ c.Response) P := by
  intro s log
  refine ok_call_recording ?_
  have hends : ∀ r, ∀ e ∈ ([⟨c, r⟩] : List Event), e.1.ends = true := by
    intro r e he
    obtain rfl := List.mem_singleton.mp he
    exact hc
  rintro (e | a) hr
  · refine ⟨rfl, [⟨c, .error e⟩], rfl, hends _, hr e rfl, .inl ⟨c, e, hc, ?_⟩⟩
    exact List.mem_singleton_self _
  · exact ⟨rfl, [⟨c, .ok a⟩], rfl, hends _, h a⟩

theorem mono (hm : EndsBy m P) (h : ∀ a more, P a more → P' a more) : EndsBy m P' := by
  intro s log
  refine (hm s log).mono ?_
  rintro (e | a) s' log' ⟨rfl, more, rfl, hends, hr⟩
  · exact ⟨rfl, more, rfl, hends, hr⟩
  · exact ⟨rfl, more, rfl, hends, h a more hr⟩

theorem bind {R : α → β → List Event → Prop} {Q : β → List Event → Prop} (hm : EndsBy m P)
    (hf : ∀ a, EndsBy (f a) (R a)) (h : ∀ a b first second, P a first → R a b second →
      Q b (first ++ second)) : EndsBy (m >>= f) Q := by
  intro s log
  refine (ok_bind _ _).mpr ((hm s log).mono ?_)
  rintro (e | a) s' log' ⟨rfl, first, rfl, hfirst, hr⟩
  · exact ⟨rfl, first, rfl, hfirst, hr⟩
  · refine (then_ok _ _).mpr ((hf a s' (log ++ first)).mono ?_)
    rintro (e | b) s'' log'' ⟨rfl, second, rfl, hsecond, hr'⟩
    · refine ⟨rfl, first ++ second, List.append_assoc _ _ _, ?_, hr'.1, hr'.2.append_right⟩
      exact fun ev hev => (List.mem_append.mp hev).elim (hfirst ev) (hsecond ev)
    · refine ⟨rfl, first ++ second, List.append_assoc _ _ _, ?_, h a b _ _ hr hr'⟩
      exact fun ev hev => (List.mem_append.mp hev).elim (hfirst ev) (hsecond ev)

theorem when {m : Client σ Unit} {c : Prop} [Decidable c] {P Q : List Event → Prop}
    (hm : c → EndsBy m fun _ => P) (hyes : c → ∀ more, P more → Q more) (hno : ¬c → Q []) :
    EndsBy (Py.when c m) fun _ => Q := by
  unfold Py.when
  split
  · rename_i hc
    exact (hm hc).mono fun _ => hyes hc
  · rename_i hc
    exact pure (hno hc)

theorem mapEach {f : α → Client σ β} {P : α → β → List Event → Prop} (xs : List α)
    (hf : ∀ x, EndsBy (f x) (P x)) : EndsBy (Py.mapEach f xs) fun ys more =>
      List.Forall₂ (fun x y => ∃ part, P x y part ∧ part ⊆ more) xs ys := by
  induction xs with
  | nil => exact pure .nil
  | cons x xs ih =>
    refine (hf x).bind (R := fun y zs more => ∃ ys, zs = y :: ys ∧
        List.Forall₂ (fun x y => ∃ part, P x y part ∧ part ⊆ more) xs ys)
      (fun y => ih.bind (R := fun ys zs more => zs = y :: ys ∧ more = [])
        (fun ys => pure ⟨rfl, rfl⟩) ?_) ?_
    · rintro ys zs first _ hys ⟨rfl, rfl⟩
      rw [List.append_nil]
      exact ⟨ys, rfl, hys⟩
    · rintro y zs first second hy ⟨ys, rfl, hys⟩
      refine .cons ⟨first, hy, List.subset_append_left _ _⟩ (hys.imp ?_)
      rintro x y ⟨part, hpart, hsub⟩
      exact ⟨part, hpart, List.subset_append_of_subset_right _ hsub⟩

/-- `finally` runs in any case, and what it raises is raised. -/
theorem tryFinally {g : Client σ Unit} {R : List Event → Prop} {Q : α → List Event → Prop}
    (hm : EndsBy m P) (hg : EndsBy g fun _ => R)
    (h : ∀ a first second, P a first → R second → Q a (first ++ second)) :
    EndsBy (Py.tryFinally m g) Q := by
  intro s log
  refine (ok_tryFinally _ _).mpr ((hm s log).mono ?_)
  rintro r s' log' ⟨rfl, first, rfl, hfirst, hr⟩
  refine (hg s' (log ++ first)).mono ?_
  rintro r' s'' log'' ⟨rfl, second, rfl, hsecond, hr'⟩
  have hends : ∀ ev ∈ first ++ second, ev.1.ends = true :=
    fun ev hev => (List.mem_append.mp hev).elim (hfirst ev) (hsecond ev)
  cases r' with
  | error e => exact ⟨rfl, _, List.append_assoc _ _ _, hends, hr'.1, hr'.2.append_right⟩
  | ok u =>
    refine ⟨rfl, _, List.append_assoc _ _ _, hends, ?_⟩
    cases r with
    | error e => exact ⟨hr.1, hr.2.append_left⟩
    | ok a => exact h a _ _ hr hr'

end EndsBy

/-! ### The stateless engine -/

namespace Stl

/-- The session has acquired its own ports and nothing else. -/
def Fits (x : StlSession) (log : List Event) (_v : SessionView) : Prop :=
  ∀ e ∈ log, e.1.acquires = true → e.1 = .acquire x.ports

theorem Fits.append {x : StlSession} {log more : List Event} {v v' : SessionView}
    (h : Fits x log v) (hkeep : ∀ e ∈ more, e.1.acquires = false) : Fits x (log ++ more) v' := by
  intro e he hacquires
  obtain he | he := List.mem_append.mp he
  · exact h e he hacquires
  · rw [hkeep e he] at hacquires
    cases hacquires

theorem activePorts_ends (ports : List Nat) :
    EndsBy (activePorts ports : Client σ (List Nat)) fun active more =>
      ∀ port ∈ ports, port ∈ active ∨ ⟨.isActive port, .ok false⟩ ∈ more := by
  refine (EndsBy.mapEach ports fun port => .request (.isActive port) rfl
      (P := fun b more => more = [⟨.isActive port, .ok b⟩]) fun _ => rfl).bind
    (R := fun bs active more => active = ((ports.zip bs).filter fun p => p.2).map Prod.fst ∧
      more = []) (fun bs => .pure ⟨rfl, rfl⟩) ?_
  rintro bs _ first _ hall ⟨rfl, rfl⟩
  rw [List.append_nil]
  induction hall with
  | nil => simp
  | @cons port b ports bs hb _ ih =>
    obtain ⟨_, rfl, hsub⟩ := hb
    intro port' hport
    obtain rfl | hport := List.mem_cons.mp hport
    · cases b with
      | true => exact .inl (by simp)
      | false => exact .inr (hsub (List.mem_singleton_self _))
    · refine (ih port' hport).imp_left fun hactive => ?_
      obtain ⟨pair, hpair, rfl⟩ := List.mem_map.mp hactive
      obtain ⟨hzip, hb⟩ := List.mem_filter.mp hpair
      exact List.mem_map.mpr ⟨pair, List.mem_filter.mpr ⟨List.mem_cons_of_mem _ hzip, hb⟩, rfl⟩

/-- `_stop_sync` stops what is active, on every port. -/
theorem stopSync_ends (ports : List Nat) (force : Bool) :
    EndsBy (stopSync ports force : Client σ Unit) fun _ more => ∀ port ∈ ports, Halted more port := by
  refine (activePorts_ends ports).bind
    (R := fun active _ more => ∀ port ∈ active, ∃ ps, port ∈ ps ∧ Went more (.stop ps))
    (fun active => ?_) ?_
  · refine (EndsBy.when (P := fun more => more = [⟨.stop active, .ok ()⟩])
      (Q := fun more => ∀ port ∈ active, ∃ ps, port ∈ ps ∧ Went more (.stop ps))
      (fun _ => .request _ rfl (P := fun _ more => more = [⟨.stop active, .ok ()⟩]) fun _ => rfl)
      ?_ ?_).bind (R := fun _ _ _ => True) (fun _ => ?_) ?_
    · rintro - _ rfl port hport
      exact ⟨active, hport, (), List.mem_singleton_self _⟩
    · intro hnone port hport
      rw [not_not.mp hnone] at hport
      cases hport
    · exact .when (P := fun _ => True) (fun _ => .request _ rfl fun _ => trivial)
        (fun _ _ _ => trivial) fun _ => trivial
    · intro _ _ first second hstop _ port hport
      obtain ⟨ps, hps, r, hr⟩ := hstop port hport
      exact ⟨ps, hps, r, List.mem_append_left _ hr⟩
  · intro active _ first second hactive hstop port hport
    obtain hport | hidle := hactive port hport
    · obtain ⟨ps, hps, r, hr⟩ := hstop port hport
      exact .inr ⟨ps, hps, r, List.mem_append_right _ hr⟩
    · exact .inl (List.mem_append_left _ hidle)

theorem cleanupSync_ends (ports : List Nat) :
    EndsBy (cleanupSync ports : Client σ Unit) fun _ => TakenDown := by
  refine .tryFinally (.request _ rfl (P := fun _ more => more = [⟨.removeAllStreams ports, .ok ()⟩])
      fun _ => rfl)
    (.tryFinally (.request _ rfl (P := fun _ more => more = [⟨.release ports, .ok ()⟩]) fun _ => rfl)
      (.request _ rfl (P := fun _ more => more = [⟨.disconnect, .ok ()⟩]) fun _ => rfl)
      (Q := fun _ more => more = [⟨.release ports, .ok ()⟩, ⟨.disconnect, .ok ()⟩]) ?_) ?_
  · rintro _ _ _ rfl rfl
    rfl
  · rintro _ _ _ rfl rfl
    exact .inl ⟨ports, List.Sublist.refl _⟩

theorem prepareSync_ok (document : JobDocument) (ports : List Nat) :
    (prepareSync document ports).Ok (recording Raised) () false
      (fun r _ log => Prepared Fits r log) [] := by
  refine ok_rollingBack (.acquire ports) (.release ports)
    (fun during r r' h => .released during ports r r' h) (fun e b log he hlog => ⟨he, hlog⟩) ?_
  refine Ok.call_bind_recording (fun e he => ⟨he e rfl, (unrolled_nil _).call rfl _⟩) fun _ _ => ?_
  have h₁ := (unrolled_nil (.acquire ports)).call (c := .connect) rfl (.ok ())
  refine Ok.call_bind_recording (fun e he => ⟨he e rfl, h₁.call rfl _⟩) fun count _ => ?_
  have h₂ := h₁.call (c := .getPortCount) rfl (.ok count)
  refine ok_check_bind (fun _ => ⟨rfl, h₂⟩) fun _ => ?_
  refine Ok.bind (P := fun (r : Except Exc (List Bool)) b log => b = false ∧
    Unrolled (.acquire ports) false log ∧ ∀ e, r = .error e → e.isException = true) ?_ ?_ ?_
  · refine ok_mapEach (fun _ _ b log => b = false ∧ Unrolled (.acquire ports) false log) ports
      ⟨rfl, h₂⟩ (fun _ _ _ h => ⟨h.1, h.2, by simp⟩) ?_
    rintro port rest ups b log ⟨rfl, h⟩
    refine ok_call_recording ?_
    rintro (e | up) hr
    · refine ⟨rfl, h.call rfl _, fun e' he' => ?_⟩
      obtain rfl := Except.error.inj he'
      exact hr e rfl
    · exact ⟨rfl, h.call rfl _⟩
  · rintro e b log ⟨rfl, h, he⟩
    exact ⟨he e rfl, h⟩
  rintro up b log ⟨rfl, h₃, -⟩
  refine ok_check_bind (fun _ => ⟨rfl, h₃⟩) fun _ => ?_
  refine Ok.call_bind_recording (fun e he => ⟨he e rfl, h₃.acquire false _ fun _ => ⟨e, rfl⟩⟩) fun _ _ => ?_
  have h₄ := h₃.acquire true (.ok ()) (by simp)
  refine (ok_assign_bind _ _).mpr ?_
  refine Ok.call_bind_recording (fun e he => ⟨he e rfl, h₄.call rfl _⟩) fun _ _ => ?_
  have h₅ := h₄.call (c := .reset ports) rfl (.ok ())
  refine Ok.call_bind_recording (fun e he => ⟨he e rfl, h₅.call rfl _⟩) fun _ _ => ?_
  have h₆ := h₅.call (c := .install document) rfl (.ok ())
  exact fun e he hacquires => (h₆ e he hacquires).1

theorem prepare_ok (config : StlConfig) (document : JobDocument) :
    (prepare config document).Ok (recording Raised) () false
      (fun r _ log => Prepared Fits r log) [] := by
  unfold prepare
  cases hv : config.validate document with
  | error e => exact ⟨config.validate_raises document e hv, .untouched⟩
  | ok u =>
    refine ok_wrappingOthers ((prepareSync_ok document _).mono ?_)
    rintro (e | x) b log h
    · exact ⟨h, clientError_isException _ _ _ _, h.2⟩
    · exact h

section Session

variable {handle : RunHandle} {sessions : Sessions StlSession} {log : List Event} {v : SessionView}

/-- The session after calls to end it that have not taken it down. -/
theorem tied_append {x : StlSession} {more : List Event} (h : Tied Fits (some x) log v)
    (hends : ∀ e ∈ more, e.1.ends = true) : Tied Fits (some x) (log ++ more) v := by
  refine h.quiet (still_of_ends hends) (keeps_of_ends hends) ?_
  intro y hy
  obtain rfl := Option.some.inj hy
  exact (h.fits _ rfl).append (keeps_of_ends hends)

/-- `stop` of a session that is there. -/
theorem tied_stop {x : StlSession} {r : Except Exc Unit} {log' : List Event}
    (h : Tied Fits (some x) log v)
    (hending : Ending log (fun _ more => ∀ port ∈ x.ports, Halted more port) r log') :
    Tied Fits (some x) log' (v.stop r) := by
  obtain ⟨more, rfl, hends, hr⟩ := hending
  have hlive : v.live = true := h.live
  have hall := tied_append h hends
  have hstill := still_of_ends hends
  unfold SessionView.stop
  rw [if_pos hlive]
  cases r with
  | error e => exact ⟨h.live, hall.stopped, hall.released, fun _ => hr.2.append_right, hall.fits⟩
  | ok u =>
    refine ⟨h.live, fun _ => ⟨log, more, rfl, hstill, ?_, ?_⟩, hall.released, hall.faulty, hall.fits⟩
    · intro ports hmem port hport
      have heq := hall.fits x rfl _ hmem rfl
      obtain rfl := ClientCall.acquire.inj heq
      exact hr port hport
    · intro hmem
      exact absurd (hall.fits x rfl _ hmem rfl) (by simp)

/-- `cleanup` of a session that is there. -/
theorem tied_cleanup {x : StlSession} {r : Except Exc Unit} {log' : List Event}
    (h : Tied Fits (some x) log v) (hending : Ending log (fun _ => TakenDown) r log') :
    Tied Fits (if r.isOk then none else some x) log' (v.cleanup .stl r) := by
  obtain ⟨more, rfl, hends, hr⟩ := hending
  have hlive : v.live = true := h.live
  have hall := tied_append h hends
  unfold SessionView.cleanup
  rw [if_pos hlive]
  cases r with
  | error e => exact ⟨rfl, hall.stopped, hall.released, fun _ => hr.2.append_right, hall.fits⟩
  | ok u =>
    refine ⟨rfl, hall.stopped, fun hreleased => ?_, hall.faulty, ?_⟩
    · obtain hstopped | hreleased := Bool.or_eq_true_iff.mp hreleased
      · exact ⟨log, more, rfl, h.stopped hstopped, still_of_ends hends, hr⟩
      · exact (h.released hreleased).append (still_of_ends hends)
    · intro y hy
      cases hy

theorem warmup_ok (h : Tied Fits (sessions handle) log v) :
    (warmup handle).Ok (recording Raised) () sessions (fun r sessions' log' =>
      OnSession handle sessions r sessions' ∧ Tied Fits (sessions' handle) log' v) log := by
  refine ok_session_bind (fun x _ => ⟨.refl (by simp), h⟩) fun _ => ⟨.refl ?_, h⟩
  rintro e ⟨⟩
  rfl

theorem run_ok (h : Tied Fits (sessions handle) log v) (hreleased : v.released = false) :
    (run handle).Ok (recording Raised) () sessions (fun r sessions' log' =>
      OnSession handle sessions r sessions' ∧
        ∃ stopped, Tied Fits (sessions' handle) log' (v.run stopped)) log := by
  refine ok_session_bind (fun x _ => ok_wrapping (ok_call_recording ?_)) fun _ => ?_
  · have hkeep : ∀ r, ∀ e ∈ ([⟨.runTraffic, r⟩] : List Event), e.1.acquires = false := by
      intro r e he
      obtain rfl := List.mem_singleton.mp he
      rfl
    have htied : ∀ r, Tied Fits (sessions handle) (log ++ [⟨.runTraffic, r⟩]) (v.run false) :=
      fun r => h.run rfl hreleased (by simp) fun y hy => (h.fits y hy).append (hkeep r)
    rintro (e | a) _
    · refine ⟨.refl ?_, false, htied _⟩
      rintro e ⟨⟩
      exact clientError_isException _ _ _ _
    · exact ⟨.refl (by simp), false, htied _⟩
  · refine ⟨.refl ?_, v.stopped, h⟩
    rintro e ⟨⟩
    rfl

theorem stop_ok (force : Bool) (h : Tied Fits (sessions handle) log v) :
    (stop handle force).Ok (recording Raised) () sessions (fun r sessions' log' =>
      OnSession handle sessions r sessions' ∧ (v.live = false → StopsMissing .stl r) ∧
        Tied Fits (sessions' handle) log' (v.stop r)) log := by
  refine (ok_locals_bind _).mpr ?_
  cases hs : sessions handle with
  | none =>
    rw [hs] at h
    have hlive : v.live = false := h.live
    have hview : v.stop (.ok ()) = v := if_neg (by simp [hlive])
    show OnSession handle sessions (.ok ()) sessions ∧ (_ → StopsMissing .stl (.ok ())) ∧
      Tied Fits (sessions handle) log (v.stop (.ok ()))
    rw [hs, hview]
    exact ⟨.refl (by simp), fun _ => rfl, h⟩
  | some x =>
    rw [hs] at h
    have hlive : v.live = true := h.live
    refine ok_wrapping ((stopSync_ends x.ports force sessions log).mono ?_)
    rintro (e | u) sessions' log' ⟨rfl, hending⟩
    · refine ⟨.refl ?_, by simp [hlive], ?_⟩
      · rintro e ⟨⟩
        exact clientError_isException _ _ _ _
      · rw [hs]
        exact tied_stop (r := .error e) h hending
    · refine ⟨.refl (by simp), by simp [hlive], ?_⟩
      rw [hs]
      exact tied_stop h hending

theorem cleanup_ok (h : Tied Fits (sessions handle) log v) :
    (cleanup handle).Ok (recording Raised) () sessions (fun r sessions' log' =>
      OnSession handle sessions r sessions' ∧ (v.live = false → r = .ok ()) ∧
        Tied Fits (sessions' handle) log' (v.cleanup .stl r)) log := by
  refine (ok_locals_bind _).mpr ?_
  cases hs : sessions handle with
  | none =>
    rw [hs] at h
    have hlive : v.live = false := h.live
    have hview : v.cleanup .stl (.ok ()) = v := if_neg (by simp [hlive])
    show OnSession handle sessions (.ok ()) sessions ∧ (_ → Except.ok () = .ok ()) ∧
      Tied Fits (sessions handle) log (v.cleanup .stl (.ok ()))
    rw [hs, hview]
    exact ⟨.refl (by simp), fun _ => rfl, h⟩
  | some x =>
    rw [hs] at h
    have hlive : v.live = true := h.live
    refine (ok_bind _ _).mpr (ok_wrapping ((cleanupSync_ends x.ports sessions log).mono ?_))
    rintro (e | u) sessions' log' ⟨rfl, hending⟩
    · refine ⟨.refl ?_, by simp [hlive], ?_⟩
      · rintro e ⟨⟩
        exact clientError_isException _ _ _ _
      · rw [hs]
        exact tied_cleanup (r := .error e) h hending
    · refine ⟨⟨fun h' hne => Function.update_of_ne hne _ _, by simp⟩, by simp [hlive], ?_⟩
      show Tied Fits ((sessions'.pop handle) handle) log' (v.cleanup .stl (.ok u))
      rw [sessions'.pop_self]
      exact tied_cleanup h hending

end Session

/-- The stateless engine is lawful. -/
def lawful (config : StlConfig) : Lawful (stl config) .stl where
  Fits := Fits
  prepare := prepare_ok config
  warmup _ _ _ _ := warmup_ok
  run _ _ _ _ h _ := run_ok h
  stop _ force _ _ _ := stop_ok force
  cleanup _ _ _ _ := cleanup_ok

end Stl

/-! ### The stateful engine -/

namespace Astf

/-- The session has acquired everything at once, and its flags are true. -/
structure Fits (x : AstfSession) (log : List Event) (v : SessionView) : Prop where
  acquired : ∀ e ∈ log, e.1.acquires = true → e.1 = .acquireAll
  stopped : x.stopped = true → v.stopped = true
  controlLost : x.controlLost = true → v.faulty = true

theorem acquired_append {log more : List Event} (h : ∀ e ∈ log, e.1.acquires = true → e.1 = .acquireAll)
    (hkeep : ∀ e ∈ more, e.1.acquires = false) :
    ∀ e ∈ log ++ more, e.1.acquires = true → e.1 = .acquireAll := by
  intro e he hacquires
  obtain he | he := List.mem_append.mp he
  · exact h e he hacquires
  · rw [hkeep e he] at hacquires
    cases hacquires

theorem prepareSync_ok (config : AstfConfig) (document : JobDocument) :
    (prepareSync config document).Ok (recording Raised) () false
      (fun r _ log => Prepared Fits r log) [] := by
  refine ok_rollingBack .acquireAll .releaseAll (fun during r r' h => .releasedAll during r r' h)
    (fun e b log he hlog => ⟨he, hlog⟩) ?_
  refine Ok.call_bind_recording (fun e he => ⟨he e rfl, (unrolled_nil _).call rfl _⟩) fun _ _ => ?_
  have h₁ := (unrolled_nil .acquireAll).call (c := .connect) rfl (.ok ())
  refine Ok.call_bind_recording (fun e he => ⟨he e rfl, h₁.call rfl _⟩) fun count _ => ?_
  have h₂ := h₁.call (c := .getPortCount) rfl (.ok count)
  refine ok_check_bind (fun _ => ⟨rfl, h₂⟩) fun _ => ?_
  refine Ok.call_bind_recording (fun e he => ⟨he e rfl, h₂.call rfl _⟩) fun clientCores _ => ?_
  have h₃ := h₂.call (c := .portCores _) rfl (.ok clientCores)
  refine Ok.call_bind_recording (fun e he => ⟨he e rfl, h₃.call rfl _⟩) fun serverCores _ => ?_
  have h₄ := h₃.call (c := .portCores _) rfl (.ok serverCores)
  cases ha : config.assign document (max clientCores serverCores) with
  | error e => exact ⟨config.assign_raises _ _ e ha, h₄⟩
  | ok u =>
    refine Ok.call_bind_recording (fun e he => ⟨he e rfl, h₄.acquire false _ fun _ => ⟨e, rfl⟩⟩)
      fun _ _ => ?_
    have h₅ := h₄.acquire true (.ok ()) (by simp)
    refine (ok_assign_bind _ _).mpr ?_
    refine Ok.call_bind_recording (fun e he => ⟨he e rfl, h₅.call rfl _⟩) fun _ _ => ?_
    have h₆ := h₅.call (c := .install document) rfl (.ok ())
    exact ⟨fun e he hacquires => (h₆ e he hacquires).1, by simp, by simp⟩

theorem prepare_ok (config : AstfConfig) (document : JobDocument) :
    (prepare config document).Ok (recording Raised) () false
      (fun r _ log => Prepared Fits r log) [] := by
  unfold prepare
  cases hv : config.validate document with
  | error e =>
    have he := config.validate_raises document e hv
    exact ok_wrappingOthers ⟨⟨he, .untouched⟩, clientError_isException _ _ _ _, .untouched⟩
  | ok u =>
    refine ok_wrappingOthers ((prepareSync_ok config document).mono ?_)
    rintro (e | x) b log h
    · exact ⟨h, clientError_isException _ _ _ _, h.2⟩
    · exact h

/-- Without errors all calls went through, and with an error one of them failed. -/
theorem attemptAll_ends (calls : List ClientCall) (hends : ∀ c ∈ calls, c.ends = true)
    (errors : List Exc) : EndsBy (attemptAll errors calls : Client σ (List Exc)) fun out more =>
      (out = [] → errors = [] ∧ List.Forall₂ (fun c (e : Event) => ∃ a, e = ⟨c, .ok a⟩) calls more) ∧
        (out ≠ [] → errors ≠ [] ∨ Failed more) := by
  induction calls generalizing errors with
  | nil => exact .pure ⟨fun h => ⟨h, .nil⟩, .inl⟩
  | cons c calls ih =>
    have hc := hends c List.mem_cons_self
    have hattempt : EndsBy
        (tryExcept (do let _ ← request c; pure errors) fun e => pure (errors ++ [e]) :
          Client σ (List Exc))
        fun out more => out = errors ∧ (∃ a, more = [⟨c, .ok a⟩]) ∨ out ≠ [] ∧ Failed more := by
      intro s log
      have hone : ∀ r, ∀ e ∈ ([⟨c, r⟩] : List Event), e.1.ends = true := by
        intro r e he
        obtain rfl := List.mem_singleton.mp he
        exact hc
      refine (ok_tryExcept _ _).mpr (Ok.call_bind_recording (fun e _ => ?_) fun a _ => ?_)
      · refine ⟨rfl, _, rfl, hone _, .inr ⟨by simp, .inl ⟨c, e, hc, ?_⟩⟩⟩
        exact List.mem_singleton_self _
      · exact ⟨rfl, _, rfl, hone _, .inl ⟨rfl, a, rfl⟩⟩
    refine hattempt.bind (fun out => ih (fun c' hc' => hends c' (List.mem_cons_of_mem _ hc')) out) ?_
    rintro out out' first second hfirst ⟨hnone, hsome⟩
    refine ⟨fun hout => ?_, fun hout => ?_⟩
    · obtain ⟨rfl, hall⟩ := hnone hout
      obtain ⟨rfl, a, rfl⟩ | ⟨hne, -⟩ := hfirst
      · exact ⟨rfl, .cons ⟨a, rfl⟩ hall⟩
      · exact absurd rfl hne
    · obtain hne | hfailed := hsome hout
      · obtain ⟨rfl, -⟩ | ⟨-, hfailed⟩ := hfirst
        · exact .inl hne
        · exact .inr hfailed.append_left
      · exact .inr hfailed.append_right

/-- `_cleanup_sync` raises only when one of its calls has failed. -/
theorem cleanupSync_ends (s : σ) (log : List Event) :
    (cleanupSync : Client σ Unit).Ok (recording Raised) () s
      (fun r s' log' => s' = s ∧ Ending log (fun _ => TakenDown) r log') log := by
  have hends : ∀ c ∈ [ClientCall.clearProfile, .releaseAll, .disconnect], c.ends = true := by
    simp [ClientCall.ends]
  refine (ok_bind _ _).mpr ((attemptAll_ends _ hends [] s log).mono ?_)
  rintro (e | out) s' log' ⟨rfl, more, rfl, hmore, hr⟩
  · exact ⟨rfl, more, rfl, hmore, hr⟩
  · cases out with
    | cons e rest =>
      refine ⟨rfl, more, rfl, hmore, clientError_isException _ _ _ _, ?_⟩
      exact (hr.2 (by simp)).resolve_left (by simp)
    | nil =>
      refine ⟨rfl, more, rfl, hmore, .inr ?_⟩
      obtain ⟨-, hall⟩ := hr.1 rfl
      cases hall with
      | cons h₁ hall =>
        cases hall with
        | cons h₂ hall =>
          cases hall with
          | cons h₃ hall =>
            cases hall
            obtain ⟨_, rfl⟩ := h₁
            obtain ⟨_, rfl⟩ := h₂
            obtain ⟨_, rfl⟩ := h₃
            exact List.Sublist.refl _

section Session

variable {handle : RunHandle} {sessions : Sessions AstfSession} {log : List Event} {v : SessionView}

theorem warmup_ok (h : Tied Fits (sessions handle) log v) :
    (warmup handle).Ok (recording Raised) () sessions (fun r sessions' log' =>
      OnSession handle sessions r sessions' ∧ Tied Fits (sessions' handle) log' v) log := by
  refine ok_session_bind (fun x _ => ⟨.refl (by simp), h⟩) fun _ => ⟨.refl ?_, h⟩
  rintro e ⟨⟩
  rfl

/-- A failed call to stop or clean up a session, whatever flag it leaves. -/
theorem tied_failed {x x' : AstfSession} {more : List Event} (h : Tied Fits (some x) log v)
    (hmore : ∀ e ∈ more, e.1.ends = true) (hfailed : Failed more) (hstopped : x'.stopped = x.stopped) :
    Tied Fits (some x') (log ++ more) { v with faulty := true } where
  live := h.live
  stopped hv := (h.stopped hv).append (still_of_ends hmore) (keeps_of_ends hmore)
  released hv := (h.released hv).append (still_of_ends hmore)
  faulty _ := hfailed.append_right
  fits y hy := by
    obtain rfl := Option.some.inj hy
    have hfits := h.fits x rfl
    exact ⟨acquired_append hfits.acquired (keeps_of_ends hmore),
      fun hs => hfits.stopped (hstopped ▸ hs), fun _ => rfl⟩

theorem onSession_modify {α : Type} {r : Except Exc α} (f : AstfSession → AstfSession)
    (hr : ∀ e, r = .error e → e.isException = true) :
    OnSession handle sessions r (sessions.modify handle f) :=
  ⟨fun _ hne => Function.update_of_ne hne _ _, hr⟩

theorem ends_singleton {c : ClientCall} (hc : c.ends = true) (r : Except Exc c.Response) :
    ∀ e ∈ ([⟨c, r⟩] : List Event), e.1.ends = true := by
  intro e he
  obtain rfl := List.mem_singleton.mp he
  exact hc

theorem isException_of_eq {α : Type} {e : Exc} (he : e.isException = true) :
    ∀ e', (.error e : Except Exc α) = .error e' → e'.isException = true := by
  rintro e' ⟨⟩
  exact he

theorem failed_singleton {c : ClientCall} (hc : c.ends = true) (e : Exc) :
    Failed [⟨c, .error e⟩] := .inl ⟨c, e, hc, List.mem_singleton_self _⟩

theorem stop_ok (force : Bool) (h : Tied Fits (sessions handle) log v) :
    (stop handle force).Ok (recording Raised) () sessions (fun r sessions' log' =>
      OnSession handle sessions r sessions' ∧ (v.live = false → StopsMissing .astf r) ∧
        Tied Fits (sessions' handle) log' (v.stop r)) log := by
  refine ok_session_bind (fun x hx => ?_) fun hnone => ?_
  · rw [hx] at h
    have hlive : v.live = true := h.live
    have herror : ∀ e, v.stop (.error e) = { v with faulty := true } := by
      simp [SessionView.stop, hlive]
    have hok : v.stop (.ok ()) = { v with stopped := true } := by simp [SessionView.stop, hlive]
    refine ok_when (fun hx₀ => ?_) fun hstopped => ?_
    · refine Ok.call_bind_recording (fun e he => ?_) fun late _ => ?_
      · refine ⟨.refl (isException_of_eq (he e rfl)), by simp [hlive], ?_⟩
        rw [hx, herror]
        exact tied_failed h (ends_singleton rfl _) (failed_singleton rfl e) rfl
      cases late with
      | true =>
        refine ⟨onSession_modify _ (isException_of_eq (clientError_isException _ _ _ _)),
          by simp [hlive], ?_⟩
        show Tied Fits (sessions.modify handle _ handle) _ _
        rw [sessions.modify_self _ hx, herror]
        exact tied_failed h (ends_singleton rfl _) (.inr (List.mem_singleton_self _)) rfl
      | false =>
        refine (ok_bind _ _).mpr (ok_wrapping (ok_call_recording ?_))
        have htwo : ∀ r : Except Exc Unit, ∀ e ∈ ([⟨.timesOut, .ok false⟩, ⟨.stopAll, r⟩] : List Event),
            e.1.ends = true := by
          intro r e he
          simp only [List.mem_cons, List.not_mem_nil, or_false] at he
          obtain rfl | rfl := he
          · rfl
          · rfl
        rintro (e | u) _
        · refine ⟨.refl (isException_of_eq (clientError_isException _ _ _ _)), by simp [hlive], ?_⟩
          rw [hx, herror, List.append_assoc]
          exact tied_failed h (htwo _) (.inl ⟨.stopAll, e, rfl, by simp⟩) rfl
        · refine ⟨onSession_modify _ (by simp), by simp [hlive], ?_⟩
          show Tied Fits (sessions.modify handle _ handle) _ _
          rw [sessions.modify_self _ hx, hok, List.append_assoc]
          have hfits := h.fits x rfl
          have hacquired := acquired_append hfits.acquired (keeps_of_ends (htwo (.ok u)))
          refine ⟨hlive, fun _ => ⟨log, _, rfl, still_of_ends (htwo _), ?_, fun _ => by simp⟩,
            fun hv => (h.released hv).append (still_of_ends (htwo _)),
            fun hv => (h.faulty hv).append_left, ?_⟩
          · intro ports hmem
            cases hacquired _ hmem rfl
          · rintro y ⟨⟩
            exact ⟨hacquired, fun _ => rfl, hfits.controlLost⟩
    · have htrue : v.stopped = true := (h.fits x rfl).stopped (by simpa using hstopped)
      refine ⟨.refl (by simp), by simp [hlive], ?_⟩
      rw [hx, show v.stop (.ok ()) = v by rw [hok, ← htrue]]
      exact h
  · have hlive : v.live = false := by rw [h.live, hnone]; rfl
    refine ⟨.refl (isException_of_eq rfl), fun _ => ⟨_, rfl⟩, ?_⟩
    rw [SessionView.stop, if_neg (by simp [hlive])]
    exact h

/-- A session that is dropped, after calls to end it that may have failed. -/
theorem tied_dropped {x : AstfSession} {r : Except Exc Unit} {more : List Event}
    (h : Tied Fits (some x) log v) (hmore : ∀ e ∈ more, e.1.ends = true)
    (hok : ∀ u, r = .ok u → TakenDown more) (herror : ∀ e, r = .error e → Failed (log ++ more)) :
    Tied Fits none (log ++ more) (v.cleanup .astf r) := by
  have hlive : v.live = true := h.live
  have hstopped : v.stopped = true → Quieted (log ++ more) := fun hv =>
    (h.stopped hv).append (still_of_ends hmore) (keeps_of_ends hmore)
  have hreleased : v.released = true → Released (log ++ more) := fun hv =>
    (h.released hv).append (still_of_ends hmore)
  unfold SessionView.cleanup
  rw [if_pos hlive]
  cases r with
  | error e => exact ⟨rfl, hstopped, hreleased, fun _ => herror e rfl, by simp⟩
  | ok u =>
    refine ⟨rfl, hstopped, fun hv => ?_, fun hv => (h.faulty hv).append_left, by simp⟩
    obtain hv | hv := Bool.or_eq_true_iff.mp hv
    · exact ⟨log, more, rfl, h.stopped hv, still_of_ends hmore, hok u rfl⟩
    · exact hreleased hv

theorem cleanup_ok (h : Tied Fits (sessions handle) log v) :
    (cleanup handle).Ok (recording Raised) () sessions (fun r sessions' log' =>
      OnSession handle sessions r sessions' ∧ (v.live = false → r = .ok ()) ∧
        Tied Fits (sessions' handle) log' (v.cleanup .astf r)) log := by
  refine (ok_locals_bind _).mpr ?_
  cases hx : sessions handle with
  | none =>
    rw [hx] at h
    have hlive : v.live = false := h.live
    have hview : v.cleanup .astf (.ok ()) = v := if_neg (by simp [hlive])
    show OnSession handle sessions (.ok ()) sessions ∧ (_ → Except.ok () = .ok ()) ∧
      Tied Fits (sessions handle) log (v.cleanup .astf (.ok ()))
    rw [hx, hview]
    exact ⟨.refl (by simp), fun _ => rfl, h⟩
  | some x =>
    rw [hx] at h
    have hlive : v.live = true := h.live
    refine (ok_tryFinally _ _).mpr ?_
    -- whatever has happened, the session is dropped
    have hdrop : ∀ (r : Except Exc Unit) sessions₁ more, (∀ h', h' ≠ handle →
        sessions₁ h' = sessions h') → (∀ e, r = .error e → e.isException = true) →
        (∀ e ∈ more, e.1.ends = true) → (∀ u, r = .ok u → TakenDown more) →
        (∀ e, r = .error e → Failed (log ++ more)) →
        (assign (·.pop handle) : Client (Sessions AstfSession) Unit).Ok (recording Raised) () sessions₁
          (Finally (fun r sessions' log' => OnSession handle sessions r sessions' ∧
            (v.live = false → r = .ok ()) ∧
              Tied Fits (sessions' handle) log' (v.cleanup .astf r)) r) (log ++ more) := by
      intro r sessions₁ more hothers hr hmore hok herror
      refine ⟨⟨fun h' hne => ?_, hr⟩, by simp [hlive], ?_⟩
      · exact (Function.update_of_ne hne _ _).trans (hothers h' hne)
      · show Tied Fits (sessions₁.pop handle handle) _ _
        rw [sessions₁.pop_self]
        exact tied_dropped h hmore hok herror
    refine ok_check_bind (fun hlost => ?_) fun _ => ?_
    · have hfailed : Failed log := h.faulty ((h.fits x rfl).controlLost hlost)
      have hnone := hdrop (.error controlLost) sessions [] (fun _ _ => rfl) (isException_of_eq rfl)
        (by simp) (by simp) (by simpa using hfailed)
      rwa [List.append_nil] at hnone
    · refine Ok.call_bind_recording (fun e he => ?_) fun late _ => ?_
      · exact hdrop _ _ _ (fun _ _ => rfl) (isException_of_eq (he e rfl)) (ends_singleton rfl _)
          (by simp) fun _ _ => (failed_singleton rfl e).append_right
      cases late with
      | true =>
        refine hdrop _ _ _ (fun h' hne => Function.update_of_ne hne _ _)
          (isException_of_eq (clientError_isException _ _ _ _)) (ends_singleton rfl _) (by simp) ?_
        exact fun _ _ => .inr (List.mem_append_right _ (List.mem_singleton_self _))
      | false =>
        refine (cleanupSync_ends sessions _).mono ?_
        rintro r sessions₁ _ ⟨rfl, more, rfl, hmore, hr⟩
        rw [List.append_assoc]
        have hall : ∀ e ∈ [(⟨.timesOut, .ok false⟩ : Event)] ++ more, e.1.ends = true := by
          intro e he
          obtain he | he := List.mem_append.mp he
          · exact ends_singleton rfl _ e he
          · exact hmore e he
        refine hdrop r _ _ (fun _ _ => rfl) ?_ hall ?_ ?_
        · rintro e rfl
          exact hr.1
        · rintro u rfl
          exact hr.append_left
        · rintro e rfl
          exact hr.2.append_right.append_right

theorem run_ok (h : Tied Fits (sessions handle) log v) (hstopped : v.stopped = false)
    (hreleased : v.released = false) :
    (run handle).Ok (recording Raised) () sessions (fun r sessions' log' =>
      OnSession handle sessions r sessions' ∧
        ∃ stopped, Tied Fits (sessions' handle) log' (v.run stopped)) log := by
  refine ok_session_bind (fun x hx => ?_) fun hnone => ?_
  · rw [hx] at h
    have hfits := h.fits x rfl
    have hx₀ : x.stopped = false := by
      cases hs : x.stopped with
      | false => rfl
      | true => rw [hfits.stopped hs] at hstopped; cases hstopped
    -- the session as it was, when traffic may still run
    have hrunning : ∀ more : List Event, (∀ e ∈ more, e.1.acquires = false) →
        Tied Fits (some x) (log ++ more) (v.run false) := by
      intro more hkeep
      refine h.run rfl hreleased (by simp) ?_
      rintro y ⟨⟩
      exact ⟨acquired_append hfits.acquired hkeep, by simp [hx₀], hfits.controlLost⟩
    have hfails : ∀ (more : List Event) e, (∀ e ∈ more, e.1.acquires = false) → e.isException = true →
        OnSession handle sessions (.error e : Except Exc EngineMeasurement) sessions ∧
          ∃ stopped, Tied Fits (sessions handle) (log ++ more) (v.run stopped) := by
      intro more e hkeep he
      rw [hx]
      exact ⟨.refl (isException_of_eq he), false, hrunning more hkeep⟩
    refine (ok_bind _ _).mpr (ok_wrapping (Ok.call_bind_recording (fun e _ => ?_) fun _ _ =>
      ok_call_recording ?_))
    · exact hfails _ _ (by simp [ClientCall.acquires]) (clientError_isException _ _ _ _)
    rintro (e | _) _
    · rw [List.append_assoc]
      exact hfails _ _ (by simp [ClientCall.acquires]) (clientError_isException _ _ _ _)
    refine (then_ok _ _).mpr (ok_wrapping ?_)
    unfold finishSync
    rw [hx₀]
    refine (ok_bind _ _).mpr (Ok.call_bind_recording (fun e _ => ?_) fun _ _ => ?_)
    · rw [List.append_assoc, List.append_assoc]
      exact hfails _ _ (by simp [ClientCall.acquires]) (clientError_isException _ _ _ _)
    -- traffic is stopped, and nothing starts it again
    refine (ok_assign _).mpr ((then_ok _ _).mpr (ok_call_recording fun r _ => ?_))
    have hquiet : Tied Fits (sessions.modify handle ({ · with stopped := true }) handle)
        (log ++ ([⟨.clearStats, .ok ()⟩, ⟨.start, .ok ()⟩] ++ [⟨.stopAll, .ok ()⟩, ⟨.collect, r⟩]))
        (v.run true) := by
      rw [sessions.modify_self _ hx]
      have hkeep : ∀ e ∈ ([⟨.clearStats, .ok ()⟩, ⟨.start, .ok ()⟩] ++
          [⟨.stopAll, .ok ()⟩, ⟨.collect, r⟩] : List Event), e.1.acquires = false := by
        simp [ClientCall.acquires]
      have hacquired := acquired_append hfits.acquired hkeep
      refine h.run (by rfl) hreleased (fun _ => ⟨log ++ [⟨.clearStats, .ok ()⟩, ⟨.start, .ok ()⟩], _,
        (List.append_assoc _ _ _).symm, ?_, ?_, fun _ => List.mem_cons_self⟩) ?_
      · simp [Still, ClientCall.starts]
      · intro ports hmem
        cases hacquired _ hmem rfl
      · rintro y ⟨⟩
        exact ⟨hacquired, fun _ => rfl, hfits.controlLost⟩
    rw [List.append_assoc, List.append_assoc, List.append_assoc]
    cases r with
    | error e =>
      exact ⟨onSession_modify _ (isException_of_eq (clientError_isException _ _ _ _)), true, hquiet⟩
    | ok a => exact ⟨onSession_modify _ (by simp), true, hquiet⟩
  · exact ⟨.refl (isException_of_eq rfl), v.stopped, h⟩

end Session

/-- The stateful engine is lawful. -/
def lawful (config : AstfConfig) : Lawful (astf config) .astf where
  Fits := Fits
  prepare := prepare_ok config
  warmup _ _ _ _ := warmup_ok
  run _ _ _ _ := run_ok
  stop _ force _ _ _ := stop_ok force
  cleanup _ _ _ _ := cleanup_ok

end Astf

/-- Whatever the library answers, a `prepare` that fails on either engine leaves no port acquired: no
acquisition went through, or its last calls were to release the ports it had acquired, and to
disconnect. -/
theorem prepare_rolled_back (line : Line) (document : JobDocument) :
    (∀ (config : StlConfig) (e : Exc),
      ((Stl.prepare config document () false).play line.answer 0).1.1 = .error e →
        RolledBack ((Stl.prepare config document () false).play line.answer 0).2) ∧
    ∀ (config : AstfConfig) (e : Exc),
      ((Astf.prepare config document () false).play line.answer 0).1.1 = .error e →
        RolledBack ((Astf.prepare config document () false).play line.answer 0).2 := by
  refine ⟨fun config e he => ?_, fun config e he => ?_⟩
  · have h := Prog.play_sound line.raised (Stl.prepare_ok config document) 0
    rw [he, List.nil_append] at h
    exact h.2
  · have h := Prog.play_sound line.raised (Astf.prepare_ok config document) 0
    rw [he, List.nil_append] at h
    exact h.2

/-! ### Engines that accept every document -/

def labStl : StlConfig where
  portMapping := id
  validate _ := .ok ()
  validate_raises := by simp

def labAstf : AstfConfig where
  ports := [0, 1]
  roles _ := (0, 1)
  validate _ := .ok ()
  validate_raises := by simp
  assign _ _ := .ok ()
  assign_raises := by simp

theorem prepare_rolled_back_install :
    RolledBack ((Stl.prepare labStl
      { kind := .statelessTraffic, logicalPorts := [0, 1], canonical := "{}" } () false).play
        (Line.refusing fun c => c matches .install _).answer 0).2 :=
  (prepare_rolled_back (.refusing fun c => c matches .install _)
    { kind := .statelessTraffic, logicalPorts := [0, 1], canonical := "{}" }).1 labStl
      (clientError "TREX_UNAVAILABLE" true "could not prepare the TRex ports" (.exception "refused"))
      (by rfl)

end TrexCli.Engine
