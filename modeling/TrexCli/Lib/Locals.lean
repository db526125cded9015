import TrexCli.Lib.Coroutine

/-!
# Computations that assign nothing

`Fixed p`: whatever the responses, the local variables after `p` are those before it. A rule for the
outcome of such a computation need not speak of them (`Fixed.keep`).
-/

namespace Coroutine.Py

variable {L C : Type} {Res : C → Type} {E : Type} {α β σ : Type} {V : Type*}

/-- The local variables after the computation are those before it. -/
def Returns (s : σ) : Prog L C Res E (Except E α × σ) → Prop
  | .ret x => x.2 = s
  | .await _ _ k => ∀ r, Returns s (k r)

/-- The computation assigns nothing. -/
def Fixed (p : Py L C Res E σ α) : Prop := ∀ l s, Returns s (p l s)

theorem Returns.bind {p : Prog L C Res E (Except E α × σ)} {s : σ}
    {f : Except E α × σ → Prog L C Res E (Except E β × σ)} (hp : Returns s p)
    (hf : ∀ r, Returns s (f (r, s))) : Returns s (p.bind f) := by
  induction p with
  | ret x =>
    obtain ⟨r, s'⟩ := x
    obtain rfl : s' = s := hp
    exact hf r
  | await l c k ih => exact fun r => ih r (hp r)

/-- What the rule of the computation leaves out. -/
theorem Returns.keep {S : Contract L C Res E V} {p : Prog L C Res E (Except E α × σ)} {s : σ} {v : V}
    {Q : Except E α → σ → V → Prop} (hp : Returns s p)
    (h : p.Ok S (fun x v' => Q x.1 x.2 v') v) :
    p.Ok S (fun x v' => x.2 = s ∧ Q x.1 s v') v := by
  induction p generalizing v with
  | ret x =>
    obtain ⟨r, s'⟩ := x
    obtain rfl : s' = s := hp
    exact ⟨rfl, h⟩
  | await l c k ih => exact ⟨h.1, fun r v' hr => ih r (hp r) (h.2 r v' hr)⟩

namespace Fixed

variable {p : Py L C Res E σ α}

theorem keep {S : Contract L C Res E V} {l : L} {s : σ} {v : V} {Q : Except E α → σ → V → Prop}
    (hp : Fixed p) (h : p.Ok S l s Q v) : p.Ok S l s (fun r s' v' => s' = s ∧ Q r s v') v :=
  (hp l s).keep h

theorem pure (a : α) : Fixed (Pure.pure a : Py L C Res E σ α) := fun _ _ => rfl

theorem raise (e : E) : Fixed (Py.raise e : Py L C Res E σ α) := fun _ _ => rfl

theorem call (c : C) : Fixed (Py.call c : Py L C Res E σ (Res c)) := fun _ _ _ => rfl

theorem bind {f : α → Py L C Res E σ β} (hp : Fixed p) (hf : ∀ a, Fixed (f a)) :
    Fixed (p >>= f) := by
  refine fun l s => (hp l s).bind ?_
  rintro (e | a)
  · exact rfl
  · exact hf a l s

theorem tryExcept {h : E → Py L C Res E σ α} (hp : Fixed p) (hh : ∀ e, Fixed (h e)) :
    Fixed (Py.tryExcept p h) := by
  refine fun l s => (hp l s).bind ?_
  rintro (e | a)
  · exact hh e l s
  · exact rfl

theorem tryFinally {f : Py L C Res E σ Unit} (hp : Fixed p) (hf : Fixed f) :
    Fixed (Py.tryFinally p f) := by
  refine fun l s => (hp l s).bind fun r => (hf l s).bind ?_
  rintro (e | u)
  · exact rfl
  · exact rfl

theorem region (l' : L) (hp : Fixed p) : Fixed (Py.region l' p) := fun _ s => hp l' s

theorem when {q : Py L C Res E σ Unit} (hq : Fixed q) (c : Prop) [Decidable c] :
    Fixed (Py.when c q) := by
  unfold Py.when
  split
  · exact hq
  · exact .pure ()

end Fixed

end Coroutine.Py
