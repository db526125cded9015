import TrexCli.Lib.Coroutine

/-!
# Running a coroutine against its environment

A `Strategy` answers the calls of a coroutine, one after the other. `Prog.play` runs a coroutine
against a strategy and keeps the calls with their answers. `recording` is the contract whose view is
that record: what a text ensures under it (`Prog.Ok`) holds of every run (`Prog.play_sound`).
-/

namespace Coroutine

variable {L C : Type} {Res : C → Type} {E : Type} {α β σ : Type}

/-- A call and its answer. -/
abbrev Event (C : Type) (Res : C → Type) (E : Type) : Type := (c : C) × Except E (Res c)

/-- An answer to every call, by the number of calls made before. -/
abbrev Strategy (C : Type) (Res : C → Type) (E : Type) : Type :=
  Nat → (c : C) → Except E (Res c)

namespace Prog

/-- The result of a coroutine, and its calls with their answers. -/
def play (f : Strategy C Res E) : Nat → Prog L C Res E α → α × List (Event C Res E)
  | _, ret a => (a, [])
  | n, await _ c k =>
    let (a, events) := (k (f n c)).play f (n + 1)
    (a, ⟨c, f n c⟩ :: events)

@[simp] theorem play_ret (f : Strategy C Res E) (n : Nat) (a : α) :
    (ret a : Prog L C Res E α).play f n = (a, []) := rfl

theorem play_await (f : Strategy C Res E) (n : Nat) (l : L) (c : C)
    (k : Except E (Res c) → Prog L C Res E α) :
    (await l c k).play f n =
      (((k (f n c)).play f (n + 1)).1, ⟨c, f n c⟩ :: ((k (f n c)).play f (n + 1)).2) := rfl

end Prog

/-- Answers satisfy `P`, and the view is the record of the calls so far. -/
def recording (P : (c : C) → Except E (Res c) → Prop) :
    Contract L C Res E (List (Event C Res E)) where
  pre _ _ _ := True
  post v _ c r v' := P c r ∧ v' = v ++ [⟨c, r⟩]

/-- What a text ensures under `recording` holds of its run against every strategy. -/
theorem Prog.play_sound {P : (c : C) → Except E (Res c) → Prop} {f : Strategy C Res E}
    (hf : ∀ n c, P c (f n c)) {p : Prog L C Res E α} {Q : α → List (Event C Res E) → Prop}
    {v : List (Event C Res E)} (h : p.Ok (recording P) Q v) (n : Nat) :
    Q (p.play f n).1 (v ++ (p.play f n).2) := by
  induction p generalizing v n with
  | ret a =>
    rw [play_ret, List.append_nil]
    exact h
  | await l c k ih =>
    have hrest := ih (f n c) (h.resume ⟨hf n c, rfl⟩) (n + 1)
    rw [List.append_assoc, List.singleton_append] at hrest
    exact hrest

namespace Py

variable {P : (c : C) → Except E (Res c) → Prop} {l : L} {s : σ} {v : List (Event C Res E)}

/-- The rule of a call, with the record made explicit. -/
theorem ok_call_recording {c : C} {Q : Except E (Res c) → σ → List (Event C Res E) → Prop}
    (h : ∀ r, P c r → Q r s (v ++ [⟨c, r⟩])) :
    (call c : Py L C Res E σ (Res c)).Ok (recording P) l s Q v := by
  refine (ok_call c).mpr ⟨trivial, ?_⟩
  rintro r v' ⟨hr, rfl⟩
  exact h r hr

/-- The rule of a call that the text goes on from. -/
theorem Ok.call_bind_recording {c : C} {f : Res c → Py L C Res E σ β}
    {Q : Except E β → σ → List (Event C Res E) → Prop}
    (he : ∀ e, P c (.error e) → Q (.error e) s (v ++ [⟨c, .error e⟩]))
    (hf : ∀ a, P c (.ok a) → (f a).Ok (recording P) l s Q (v ++ [⟨c, .ok a⟩])) :
    (call c >>= f).Ok (recording P) l s Q v := by
  refine Ok.call_bind trivial ?_ ?_
  · rintro e v' ⟨hr, rfl⟩
    exact he e hr
  · rintro a v' ⟨hr, rfl⟩
    exact hf a hr

end Py

end Coroutine
