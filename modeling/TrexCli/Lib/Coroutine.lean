import Mathlib.Logic.Basic
import Mathlib.Tactic.Common

/-!
# Coroutines as resumption trees, and their weakest preconditions

A coroutine is a tree (`Prog`): it has returned, or it awaits a call and continues with whatever
response the call gets. A response is a result or an exception, so an exception thrown into a
suspended coroutine is one more response. `Py` adds what a coroutine of an imperative language has
besides: exceptions, `try`/`finally`, local variables that an exception handler still sees, and a
label naming the region of the text an await stands in.

A `Contract` says which calls a coroutine may make from an abstract view of the world and how the
view can move with each response. `Prog.Ok` is the weakest precondition under a contract: whatever
the responses, every call is permitted and the postcondition holds at the end. The rules below
reduce `Ok` of a program text to the calls it makes.
-/

namespace Coroutine

variable {L C : Type} {Res : C → Type} {E : Type} {α β σ τ : Type} {V : Type*}

/-- A computation that has returned, or awaits call `c` in region `l`. -/
inductive Prog (L C : Type) (Res : C → Type) (E : Type) (α : Type) where
  | ret (a : α) : Prog L C Res E α
  | await (l : L) (c : C) (k : Except E (Res c) → Prog L C Res E α) : Prog L C Res E α

namespace Prog

def bind : Prog L C Res E α → (α → Prog L C Res E β) → Prog L C Res E β
  | ret a, f => f a
  | await l c k, f => await l c fun r => (k r).bind f

/-- The computation has returned. -/
def done : Prog L C Res E α → Bool
  | ret _ => true
  | await .. => false

@[simp] theorem done_ret (a : α) : (ret a : Prog L C Res E α).done = true := rfl

@[simp] theorem done_await (l : L) (c : C) (k : Except E (Res c) → Prog L C Res E α) :
    (await l c k).done = false := rfl

@[simp] theorem ret_bind (a : α) (f : α → Prog L C Res E β) : (ret a).bind f = f a := rfl

end Prog

/-- What a coroutine may call from a view, and the views a response can lead to. -/
structure Contract (L C : Type) (Res : C → Type) (E : Type) (V : Type*) where
  /-- The call is permitted. -/
  pre : V → L → C → Prop
  /-- The response and the view after it. -/
  post : V → L → (c : C) → Except E (Res c) → V → Prop

namespace Prog

/-- Weakest precondition: every call is permitted and every return satisfies `Q`. -/
def Ok (S : Contract L C Res E V) : Prog L C Res E α → (α → V → Prop) → V → Prop
  | ret a, Q, v => Q a v
  | await l c k, Q, v => S.pre v l c ∧ ∀ r v', S.post v l c r v' → (k r).Ok S Q v'

variable {S : Contract L C Res E V}

theorem Ok.mono {p : Prog L C Res E α} {Q Q' : α → V → Prop} (hQ : ∀ a v, Q a v → Q' a v) {v : V}
    (h : p.Ok S Q v) : p.Ok S Q' v := by
  induction p generalizing v with
  | ret a => exact hQ a v h
  | await l c k ih => exact ⟨h.1, fun r v' hr => ih r (h.2 r v' hr)⟩

theorem ok_bind {p : Prog L C Res E α} {f : α → Prog L C Res E β} {Q : β → V → Prop} {v : V} :
    (p.bind f).Ok S Q v ↔ p.Ok S (fun a v' => (f a).Ok S Q v') v := by
  induction p generalizing v with
  | ret a => exact Iff.rfl
  | await l c k ih =>
    constructor
    · exact fun h => ⟨h.1, fun r v' hr => (ih r).mp (h.2 r v' hr)⟩
    · exact fun h => ⟨h.1, fun r v' hr => (ih r).mpr (h.2 r v' hr)⟩

/-- A coroutine that is in order stays so when the call it awaits gets its response. -/
theorem Ok.resume {l : L} {c : C} {k : Except E (Res c) → Prog L C Res E α} {Q : α → V → Prop}
    {v v' : V} {r : Except E (Res c)} (h : (await l c k).Ok S Q v) (hr : S.post v l c r v') :
    (k r).Ok S Q v' :=
  h.2 r v' hr

/-- The complete executions of a coroutine on its own, from view to view. -/
inductive Run (S : Contract L C Res E V) : Prog L C Res E α → V → α → V → Prop where
  | ret (a : α) (v : V) : Run S (ret a) v a v
  | await {l : L} {c : C} {k : Except E (Res c) → Prog L C Res E α} {v v' v'' : V}
      {r : Except E (Res c)} {a : α} (hr : S.post v l c r v') (hk : Run S (k r) v' a v'') :
      Run S (await l c k) v a v''

/-- The weakest precondition is sound for complete executions. -/
theorem Run.sound {p : Prog L C Res E α} {v v' : V} {a : α} {Q : α → V → Prop}
    (hrun : Run S p v a v') (h : p.Ok S Q v) : Q a v' := by
  induction hrun with
  | ret a v => exact h
  | await hr _ ih => exact ih (h.resume hr)

end Prog

/-- A computation with a region label, local variables `σ` and exceptions `E`. The locals come back
with an exception too, as a handler of the source sees them. -/
def Py (L C : Type) (Res : C → Type) (E σ α : Type) : Type :=
  L → σ → Prog L C Res E (Except E α × σ)

namespace Py

/-- Return a value. -/
protected def pure (a : α) : Py L C Res E σ α := fun _ s => .ret (.ok a, s)

protected def bind (p : Py L C Res E σ α) (f : α → Py L C Res E σ β) : Py L C Res E σ β :=
  fun l s => (p l s).bind fun
    | (.ok a, s') => f a l s'
    | (.error e, s') => .ret (.error e, s')

instance : Monad (Py L C Res E σ) where
  pure := Py.pure
  bind := Py.bind

/-- Raise an exception. -/
def raise (e : E) : Py L C Res E σ α := fun _ s => .ret (.error e, s)

/-- Await a call. -/
def call (c : C) : Py L C Res E σ (Res c) := fun l s => .await l c fun r => .ret (r, s)

/-- The local variables. -/
def locals : Py L C Res E σ σ := fun _ s => .ret (.ok s, s)

/-- Assign to the local variables. -/
def assign (f : σ → σ) : Py L C Res E σ Unit := fun _ s => .ret (.ok (), f s)

/-- `try: p except e: h e`; the handler re-raises what it does not catch. -/
def tryExcept (p : Py L C Res E σ α) (h : E → Py L C Res E σ α) : Py L C Res E σ α :=
  fun l s => (p l s).bind fun
    | (.ok a, s') => .ret (.ok a, s')
    | (.error e, s') => h e l s'

/-- `try: p finally: f`; an exception of `f` replaces the outcome of `p`. -/
def tryFinally (p : Py L C Res E σ α) (f : Py L C Res E σ Unit) : Py L C Res E σ α :=
  fun l s => (p l s).bind fun (r, s') => (f l s').bind fun
    | (.ok _, s'') => .ret (r, s'')
    | (.error e, s'') => .ret (.error e, s'')

/-- Name the region of the text `p` stands in. -/
def region (l : L) (p : Py L C Res E σ α) : Py L C Res E σ α := fun _ s => p l s

/-- Call a function with local variables of its own. -/
def withLocals (t : τ) (p : Py L C Res E τ α) : Py L C Res E σ α :=
  fun l s => (p l t).bind fun (r, _) => .ret (r, s)

/-- `if c: p` -/
def when (c : Prop) [Decidable c] (p : Py L C Res E σ Unit) : Py L C Res E σ Unit :=
  if c then p else pure ()

/-- `for x in xs: f x` -/
def forEach (f : α → Py L C Res E σ Unit) : List α → Py L C Res E σ Unit
  | [] => pure ()
  | x :: xs => do
    f x
    forEach f xs

/-- `[f x for x in xs]` -/
def mapEach (f : α → Py L C Res E σ β) : List α → Py L C Res E σ (List β)
  | [] => pure []
  | x :: xs => do
    let y ← f x
    let ys ← mapEach f xs
    pure (y :: ys)

/-- `any(f x for x in xs)` -/
def anyEach (f : α → Py L C Res E σ Bool) : List α → Py L C Res E σ Bool
  | [] => pure false
  | x :: xs => do
    let b ← f x
    if b then pure true else anyEach f xs

variable {S : Contract L C Res E V}

/-- Weakest precondition of a computation in region `l` with local variables `s`. -/
def Ok (S : Contract L C Res E V) (p : Py L C Res E σ α) (l : L) (s : σ)
    (Q : Except E α → σ → V → Prop) (v : V) : Prop :=
  (p l s).Ok S (fun x v' => Q x.1 x.2 v') v

variable {l : L} {s : σ} {v : V} {Q Q' : Except E α → σ → V → Prop}

theorem Ok.mono {p : Py L C Res E σ α} (h : p.Ok S l s Q v) (hQ : ∀ r s v, Q r s v → Q' r s v) :
    p.Ok S l s Q' v :=
  Prog.Ok.mono (fun (x : Except E α × σ) v' => hQ x.1 x.2 v') h

@[simp] theorem ok_pure (a : α) : (pure a : Py L C Res E σ α).Ok S l s Q v ↔ Q (.ok a) s v := Iff.rfl

@[simp] theorem ok_raise (e : E) :
    (raise e : Py L C Res E σ α).Ok S l s Q v ↔ Q (.error e) s v := Iff.rfl

@[simp] theorem ok_call (c : C) {Q : Except E (Res c) → σ → V → Prop} :
    (call c : Py L C Res E σ (Res c)).Ok S l s Q v ↔
      S.pre v l c ∧ ∀ r v', S.post v l c r v' → Q r s v' := Iff.rfl

@[simp] theorem ok_locals {Q : Except E σ → σ → V → Prop} :
    (locals : Py L C Res E σ σ).Ok S l s Q v ↔ Q (.ok s) s v := Iff.rfl

@[simp] theorem ok_assign (f : σ → σ) {Q : Except E Unit → σ → V → Prop} :
    (assign f : Py L C Res E σ Unit).Ok S l s Q v ↔ Q (.ok ()) (f s) v := Iff.rfl

@[simp] theorem ok_region (l' : L) (p : Py L C Res E σ α) :
    (region l' p).Ok S l s Q v ↔ p.Ok S l' s Q v := Iff.rfl

/-- How a computation goes on after the outcome of its first part. -/
def Then (f : α → Py L C Res E σ β) (S : Contract L C Res E V) (l : L)
    (Q : Except E β → σ → V → Prop) : Except E α → σ → V → Prop
  | .ok a, s, v => (f a).Ok S l s Q v
  | .error e, s, v => Q (.error e) s v

@[simp] theorem then_ok (f : α → Py L C Res E σ β) {Q : Except E β → σ → V → Prop} (a : α) :
    Then f S l Q (.ok a) s v ↔ (f a).Ok S l s Q v := Iff.rfl

@[simp] theorem then_error (f : α → Py L C Res E σ β) {Q : Except E β → σ → V → Prop} (e : E) :
    Then f S l Q (.error e) s v ↔ Q (.error e) s v := Iff.rfl

theorem ok_bind (p : Py L C Res E σ α) (f : α → Py L C Res E σ β)
    {Q : Except E β → σ → V → Prop} :
    (p >>= f).Ok S l s Q v ↔ p.Ok S l s (Then f S l Q) v := by
  refine Prog.ok_bind.trans (Iff.of_eq ?_)
  refine congrArg (fun R => (p l s).Ok S R v) (funext fun x => funext fun v' => ?_)
  obtain ⟨_ | _, _⟩ := x <;> rfl

theorem ok_call_bind (c : C) (f : Res c → Py L C Res E σ β) {Q : Except E β → σ → V → Prop} :
    (call c >>= f).Ok S l s Q v ↔
      S.pre v l c ∧ ∀ r v', S.post v l c r v' → Then f S l Q r s v' :=
  ok_bind (call c) f

@[simp] theorem ok_locals_bind (f : σ → Py L C Res E σ β) {Q : Except E β → σ → V → Prop} :
    (locals >>= f).Ok S l s Q v ↔ (f s).Ok S l s Q v := Iff.rfl

@[simp] theorem ok_assign_bind (g : σ → σ) (f : Unit → Py L C Res E σ β)
    {Q : Except E β → σ → V → Prop} :
    (assign g >>= f).Ok S l s Q v ↔ (f ()).Ok S l (g s) Q v := Iff.rfl

/-- The bind rule: an exception escapes, a value goes on. -/
theorem Ok.bind {p : Py L C Res E σ α} {f : α → Py L C Res E σ β}
    {P : Except E α → σ → V → Prop} {Q : Except E β → σ → V → Prop} (hp : p.Ok S l s P v)
    (he : ∀ e s v, P (.error e) s v → Q (.error e) s v)
    (hf : ∀ a s v, P (.ok a) s v → (f a).Ok S l s Q v) : (p >>= f).Ok S l s Q v := by
  refine (ok_bind p f).mpr (hp.mono ?_)
  rintro (e | a) s' v' h
  · exact he e s' v' h
  · exact hf a s' v' h

/-- The bind rule where the first part is a call. -/
theorem Ok.call_bind {c : C} {f : Res c → Py L C Res E σ β} {Q : Except E β → σ → V → Prop}
    (hpre : S.pre v l c) (he : ∀ e v', S.post v l c (.error e) v' → Q (.error e) s v')
    (hf : ∀ a v', S.post v l c (.ok a) v' → (f a).Ok S l s Q v') :
    (call c >>= f).Ok S l s Q v := by
  refine (ok_call_bind c f).mpr ⟨hpre, ?_⟩
  rintro (e | a) v' hr
  · exact he e v' hr
  · exact hf a v' hr

/-- The handler's part in the outcome of `tryExcept`. -/
def Handled (h : E → Py L C Res E σ α) (S : Contract L C Res E V) (l : L)
    (Q : Except E α → σ → V → Prop) : Except E α → σ → V → Prop
  | .ok a, s, v => Q (.ok a) s v
  | .error e, s, v => (h e).Ok S l s Q v

@[simp] theorem handled_ok (h : E → Py L C Res E σ α) (a : α) :
    Handled h S l Q (.ok a) s v ↔ Q (.ok a) s v := Iff.rfl

@[simp] theorem handled_error (h : E → Py L C Res E σ α) (e : E) :
    Handled h S l Q (.error e) s v ↔ (h e).Ok S l s Q v := Iff.rfl

theorem ok_tryExcept (p : Py L C Res E σ α) (h : E → Py L C Res E σ α) :
    (tryExcept p h).Ok S l s Q v ↔ p.Ok S l s (Handled h S l Q) v := by
  refine Prog.ok_bind.trans (Iff.of_eq ?_)
  refine congrArg (fun R => (p l s).Ok S R v) (funext fun x => funext fun v' => ?_)
  obtain ⟨_ | _, _⟩ := x <;> rfl

theorem ok_tryExcept_call (c : C) (h : E → Py L C Res E σ (Res c))
    {Q : Except E (Res c) → σ → V → Prop} :
    (tryExcept (call c) h).Ok S l s Q v ↔
      S.pre v l c ∧ ∀ r v', S.post v l c r v' → Handled h S l Q r s v' :=
  ok_tryExcept (call c) h

/-- The outcome after the `finally` block: the pending one, or the block's own exception. -/
def Finally (Q : Except E α → σ → V → Prop) (r : Except E α) : Except E Unit → σ → V → Prop
  | .ok _, s, v => Q r s v
  | .error e, s, v => Q (.error e) s v

@[simp] theorem finally_ok (r : Except E α) (u : Unit) : Finally Q r (.ok u) s v ↔ Q r s v := Iff.rfl

@[simp] theorem finally_error (r : Except E α) (e : E) :
    Finally Q r (.error e) s v ↔ Q (.error e) s v := Iff.rfl

theorem ok_tryFinally (p : Py L C Res E σ α) (f : Py L C Res E σ Unit) :
    (tryFinally p f).Ok S l s Q v ↔
      p.Ok S l s (fun r s' v' => f.Ok S l s' (Finally Q r) v') v := by
  refine Prog.ok_bind.trans (Iff.of_eq ?_)
  refine congrArg (fun R => (p l s).Ok S R v) (funext fun x => funext fun v' => ?_)
  obtain ⟨r, s'⟩ := x
  refine propext (Prog.ok_bind.trans (Iff.of_eq ?_))
  refine congrArg (fun R => (f l s').Ok S R v') (funext fun y => funext fun v'' => ?_)
  obtain ⟨_ | _, _⟩ := y <;> rfl

theorem ok_withLocals (t : τ) (p : Py L C Res E τ α) :
    (withLocals t p : Py L C Res E σ α).Ok S l s Q v ↔
      p.Ok S l t (fun r _ v' => Q r s v') v := by
  refine Prog.ok_bind.trans (Iff.of_eq ?_)
  refine congrArg (fun R => (p l t).Ok S R v) (funext fun x => funext fun v' => ?_)
  obtain ⟨_, _⟩ := x; rfl

theorem ok_when {c : Prop} [Decidable c] {p : Py L C Res E σ Unit}
    {Q : Except E Unit → σ → V → Prop} (hp : c → p.Ok S l s Q v) (hnot : ¬c → Q (.ok ()) s v) :
    (when c p).Ok S l s Q v := by
  unfold when
  split
  · exact hp ‹_›
  · exact hnot ‹_›

/-- The loop rule: an invariant of the body, on the rest of the list, carries to the end. -/
theorem ok_forEach (f : α → Py L C Res E σ Unit) {Q : Except E Unit → σ → V → Prop}
    (I : List α → σ → V → Prop) (xs : List α) (h0 : I xs s v)
    (hnil : ∀ s v, I [] s v → Q (.ok ()) s v)
    (hcons : ∀ x rest s v, I (x :: rest) s v →
      (f x).Ok S l s (fun r s' v' => match r with
        | .ok _ => I rest s' v'
        | .error e => Q (.error e) s' v') v) :
    (forEach f xs).Ok S l s Q v := by
  induction xs generalizing s v with
  | nil => exact hnil s v h0
  | cons x rest ih =>
    refine (ok_bind (f x) fun _ => forEach f rest).mpr ((hcons x rest s v h0).mono ?_)
    rintro (e | u) s' v' hr
    · exact hr
    · exact ih hr

/-- The loop rule of a comprehension: an invariant of the rest of the list and the results so far. -/
theorem ok_mapEach {f : α → Py L C Res E σ β} {Q : Except E (List β) → σ → V → Prop}
    (I : List α → List β → σ → V → Prop) (xs : List α) (h0 : I xs [] s v)
    (hnil : ∀ ys s v, I [] ys s v → Q (.ok ys) s v)
    (hcons : ∀ x rest ys s v, I (x :: rest) ys s v →
      (f x).Ok S l s (fun r s' v' => match r with
        | .ok y => I rest (ys ++ [y]) s' v'
        | .error e => Q (.error e) s' v') v) :
    (mapEach f xs).Ok S l s Q v := by
  suffices h : ∀ xs ys s v, I xs ys s v →
      (mapEach f xs).Ok S l s (fun r s' v' => Q (r.map (ys ++ ·)) s' v') v by
    refine (h xs [] s v h0).mono ?_
    rintro (e | zs) s' v' hr
    · exact hr
    · exact hr
  intro xs
  induction xs with
  | nil =>
    intro ys s v hI
    show Q (.ok (ys ++ [])) s v
    rw [List.append_nil]
    exact hnil ys s v hI
  | cons x rest ih =>
    intro ys s v hI
    refine (ok_bind _ _).mpr ((hcons x rest ys s v hI).mono ?_)
    rintro (e | y) s' v' hr
    · exact hr
    · refine (then_ok _ _).mpr ((ok_bind _ _).mpr ((ih (ys ++ [y]) s' v' hr).mono ?_))
      rintro (e | zs) s'' v'' hr'
      · exact hr'
      · show Q (.ok (ys ++ y :: zs)) s'' v''
        have happend : ys ++ y :: zs = ys ++ [y] ++ zs := by simp
        rw [happend]
        exact hr'

/-- An outcome, with a value in `Q` or an exception in `R`. -/
def Ends (Q : α → V → Prop) (R : E → V → Prop) : Except E α → V → Prop
  | .ok a, v => Q a v
  | .error e, v => R e v

@[simp] theorem ends_ok (Q : α → V → Prop) (R : E → V → Prop) (a : α) :
    Ends Q R (.ok a) v ↔ Q a v := Iff.rfl

@[simp] theorem ends_error (Q : α → V → Prop) (R : E → V → Prop) (e : E) :
    Ends Q R (.error e) v ↔ R e v := Iff.rfl

/-! ### Computations that keep an invariant

Where the postcondition is an invariant of the region and the view, whatever the outcome, the rules
have no side condition but those of the calls. -/

/-- From a view with `I`, every call is permitted and every response, and the end, is in `I`. -/
def Safe (S : Contract L C Res E V) (I : L → V → Prop) (p : Py L C Res E σ α) : Prop :=
  ∀ l s v, I l v → p.Ok S l s (fun _ _ v' => I l v') v

variable {I : L → V → Prop}

theorem safe_pure (a : α) : (pure a : Py L C Res E σ α).Safe S I := fun _ _ _ h => h

theorem safe_raise (e : E) : (raise e : Py L C Res E σ α).Safe S I := fun _ _ _ h => h

theorem safe_locals : (locals : Py L C Res E σ σ).Safe S I := fun _ _ _ h => h

theorem safe_assign (f : σ → σ) : (assign f : Py L C Res E σ Unit).Safe S I := fun _ _ _ h => h

theorem safe_call (c : C)
    (h : ∀ l v, I l v → S.pre v l c ∧ ∀ r v', S.post v l c r v' → I l v') :
    (call c : Py L C Res E σ (Res c)).Safe S I := fun l _ v hv => h l v hv

theorem Safe.bind {p : Py L C Res E σ α} {f : α → Py L C Res E σ β} (hp : p.Safe S I)
    (hf : ∀ a, (f a).Safe S I) : (p >>= f).Safe S I := by
  intro l s v hv
  refine (ok_bind p f).mpr ((hp l s v hv).mono ?_)
  rintro (e | a) s' v' hv'
  · exact hv'
  · exact hf a l s' v' hv'

theorem Safe.tryExcept {p : Py L C Res E σ α} {h : E → Py L C Res E σ α} (hp : p.Safe S I)
    (hh : ∀ e, (h e).Safe S I) : (tryExcept p h).Safe S I := by
  intro l s v hv
  refine (ok_tryExcept p h).mpr ((hp l s v hv).mono ?_)
  rintro (e | a) s' v' hv'
  · exact hh e l s' v' hv'
  · exact hv'

theorem Safe.tryFinally {p : Py L C Res E σ α} {f : Py L C Res E σ Unit} (hp : p.Safe S I)
    (hf : f.Safe S I) : (tryFinally p f).Safe S I := by
  intro l s v hv
  refine (ok_tryFinally p f).mpr ((hp l s v hv).mono ?_)
  intro r s' v' hv'
  refine (hf l s' v' hv').mono ?_
  rintro (e | u) s'' v'' hv''
  · exact hv''
  · exact hv''

theorem Safe.when {p : Py L C Res E σ Unit} (hp : p.Safe S I) (c : Prop) [Decidable c] :
    (when c p).Safe S I := by
  unfold Py.when
  split
  · exact hp
  · exact safe_pure ()

theorem Safe.forEach {f : α → Py L C Res E σ Unit} {xs : List α} (hf : ∀ a ∈ xs, (f a).Safe S I) :
    (forEach f xs).Safe S I := by
  induction xs with
  | nil => exact safe_pure ()
  | cons x rest ih =>
    exact (hf x List.mem_cons_self).bind fun _ => ih fun a ha => hf a (List.mem_cons_of_mem x ha)

theorem Safe.anyEach {f : α → Py L C Res E σ Bool} {xs : List α} (hf : ∀ a ∈ xs, (f a).Safe S I) :
    (anyEach f xs).Safe S I := by
  induction xs with
  | nil => exact safe_pure false
  | cons x rest ih =>
    refine (hf x List.mem_cons_self).bind fun b => ?_
    split
    · exact safe_pure true
    · exact ih fun a ha => hf a (List.mem_cons_of_mem x ha)

end Py

/-! ### Runs -/

namespace Prog

variable {S : Contract L C Res E V}

/-- A coroutine has a complete execution if every call has some response. -/
theorem exists_run (h : ∀ v l c, ∃ r v', S.post v l c r v') (p : Prog L C Res E α) (v : V) :
    ∃ a v', Run S p v a v' := by
  induction p generalizing v with
  | ret a => exact ⟨a, v, .ret a v⟩
  | await l c k ih =>
    obtain ⟨r, v', hr⟩ := h v l c
    obtain ⟨a, v'', hrun⟩ := ih r v'
    exact ⟨a, v'', .await hr hrun⟩

/-- What no response loses, no execution loses. -/
theorem Run.mono {R : V → V → Prop} (hrefl : ∀ v, R v v)
    (htrans : ∀ v v' v'', R v v' → R v' v'' → R v v'')
    (hstep : ∀ v l c r v', S.post v l c r v' → R v v') {p : Prog L C Res E α} {v v' : V} {a : α}
    (hrun : Run S p v a v') : R v v' := by
  induction hrun with
  | ret a v => exact hrefl v
  | await hr _ ih => exact htrans _ _ _ (hstep _ _ _ _ _ hr) ih

theorem Run.bind {p : Prog L C Res E α} {f : α → Prog L C Res E β} {v v' v'' : V} {a : α} {b : β}
    (hp : Run S p v a v') (hf : Run S (f a) v' b v'') : Run S (p.bind f) v b v'' := by
  induction hp with
  | ret a v => exact hf
  | await hr _ ih => exact .await hr (ih hf)

end Prog

namespace Py

variable {S : Contract L C Res E V} {l : L} {s s' s'' : σ} {v v' v'' : V}

theorem run_bind {p : Py L C Res E σ α} {f : α → Py L C Res E σ β} {a : α} {x : Except E β × σ}
    (hp : Prog.Run S (p l s) v (.ok a, s') v') (hf : Prog.Run S (f a l s') v' x v'') :
    Prog.Run S ((p >>= f) l s) v x v'' :=
  Prog.Run.bind hp hf

theorem run_call {c : C} {r : Except E (Res c)} (h : S.post v l c r v') :
    Prog.Run S ((call c : Py L C Res E σ (Res c)) l s) v (r, s) v' :=
  .await h (.ret _ _)

theorem run_tryFinally {p : Py L C Res E σ α} {f : Py L C Res E σ Unit} {r : Except E α}
    {r' : Except E Unit} (hp : Prog.Run S (p l s) v (r, s') v')
    (hf : Prog.Run S (f l s') v' (r', s'') v'') :
    ∃ x, Prog.Run S (tryFinally p f l s) v x v'' := by
  cases r' with
  | ok u => exact ⟨(r, s''), Prog.Run.bind hp (Prog.Run.bind hf (.ret _ _))⟩
  | error e => exact ⟨(.error e, s''), Prog.Run.bind hp (Prog.Run.bind hf (.ret _ _))⟩

/-- Each element can be answered by `g`, from any view with `J`. -/
theorem run_mapEach {f : α → Py L C Res E σ β} {g : α → β} {J : V → Prop}
    (h : ∀ x v, J v → ∃ v', J v' ∧ Prog.Run S (f x l s) v (.ok (g x), s) v') (xs : List α) (v : V)
    (hv : J v) : ∃ v', J v' ∧ Prog.Run S (mapEach f xs l s) v (.ok (xs.map g), s) v' := by
  induction xs generalizing v with
  | nil => exact ⟨v, hv, .ret _ _⟩
  | cons x xs ih =>
    obtain ⟨v', hv', hrun⟩ := h x v hv
    obtain ⟨v'', hv'', hrest⟩ := ih v' hv'
    exact ⟨v'', hv'', run_bind hrun (run_bind hrest (.ret _ _))⟩

theorem run_anyEach {f : α → Py L C Res E σ Bool} {J : V → Prop}
    (h : ∀ x v, J v → ∃ v', J v' ∧ Prog.Run S (f x l s) v (.ok false, s) v') (xs : List α) (v : V)
    (hv : J v) : ∃ v', J v' ∧ Prog.Run S (anyEach f xs l s) v (.ok false, s) v' := by
  induction xs generalizing v with
  | nil => exact ⟨v, hv, .ret _ _⟩
  | cons x xs ih =>
    obtain ⟨v', hv', hrun⟩ := h x v hv
    obtain ⟨v'', hv'', hrest⟩ := ih v' hv'
    exact ⟨v'', hv'', run_bind hrun hrest⟩

end Py

end Coroutine
