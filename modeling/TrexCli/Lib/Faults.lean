import TrexCli.Lib.Effect

/-!
# Programs whose operations fail

The operations of a program on a store each have a fate: an operation is carried out, it raises and
leaves the store as it was, or the process stops there. A handler and a `finally` block run after an
exception and not after a crash. `Triple P m Q E C` says what holds of the store after `m` for every
list of fates: `Q` when it returns, `E` when it raises and `C` when it was cut off. `Steady m φ` says
that `m`, when no operation fails, is not cut off and raises only what is in `φ`.
-/

/-- What becomes of an operation. -/
inductive Fate where
  | proceeds
  | fails
  | crashes
  deriving DecidableEq, Repr

/-- Why a program does not return. -/
inductive Halt (ε : Type) where
  | raised (e : ε)
  | crashed
  deriving DecidableEq, Repr

/-- A program on a store `σ`, with the fates of the operations to come. -/
abbrev Faulty (ε σ α : Type) := Effect (Halt ε) (σ × List Fate) α

namespace Faulty

variable {ε σ α β : Type}

def raise (e : ε) : Faulty ε σ α := Effect.throw (.raised e)

/-- The value or the exception of a function that does not touch the store. -/
def ofExcept : Except ε α → Faulty ε σ α
  | .ok a => pure a
  | .error e => raise e

/-- A computation on the store that cannot fail. -/
def pureState (f : σ → α × σ) : Faulty ε σ α := fun (s, fates) => (.ok (f s).1, (f s).2, fates)

/-- An operation that raises `e` when it fails; when the fates run out the rest succeeds. -/
def operation (e : ε) (f : σ → α × σ) : Faulty ε σ α
  | (s, []) => (.ok (f s).1, (f s).2, [])
  | (s, .proceeds :: fates) => (.ok (f s).1, (f s).2, fates)
  | (s, .fails :: fates) => (.error (.raised e), s, fates)
  | (s, .crashes :: fates) => (.error .crashed, s, fates)

/-- `try: m; finally: cleanup` -/
def tryFinally (m : Faulty ε σ α) (cleanup : Faulty ε σ Unit) : Faulty ε σ α := fun s =>
  match m s with
  | (.ok a, s') => (cleanup >>= fun _ => pure a) s'
  | (.error (.raised e), s') => (cleanup >>= fun _ => raise e) s'
  | (.error .crashed, s') => (.error .crashed, s')

/-- `try: m; except: handler` -/
def tryExcept (m : Faulty ε σ α) (handler : ε → Faulty ε σ α) : Faulty ε σ α := fun s =>
  match m s with
  | (.error (.raised e), s') => handler e s'
  | (.ok a, s') => (.ok a, s')
  | (.error .crashed, s') => (.error .crashed, s')

/-- What a program leaves behind, for every list of fates. -/
def Triple (P : σ → Prop) (m : Faulty ε σ α) (Q : α → σ → Prop) (E : ε → σ → Prop)
    (C : σ → Prop) : Prop :=
  ∀ s fates, P s → match m (s, fates) with
    | (.ok a, s', _) => Q a s'
    | (.error (.raised e), s', _) => E e s'
    | (.error .crashed, s', _) => C s'

variable {P P' C C' : σ → Prop} {Q Q' : α → σ → Prop} {R : β → σ → Prop} {E E' : ε → σ → Prop}
  {m : Faulty ε σ α} {f : α → Faulty ε σ β}

namespace Triple

theorem pure {a : α} (h : ∀ s, P s → Q a s) : Triple P (Pure.pure a : Faulty ε σ α) Q E C :=
  fun s _ hs => h s hs

theorem raise {e : ε} (h : ∀ s, P s → E e s) : Triple P (Faulty.raise e : Faulty ε σ α) Q E C :=
  fun s _ hs => h s hs

theorem ofExcept {r : Except ε α} (hok : ∀ a s, r = .ok a → P s → Q a s)
    (herror : ∀ e s, r = .error e → P s → E e s) :
    Triple P (Faulty.ofExcept r : Faulty ε σ α) Q E C := by
  cases r with
  | ok a => exact pure fun s hs => hok a s rfl hs
  | error e => exact raise fun s hs => herror e s rfl hs

theorem pureState {g : σ → α × σ} (h : ∀ s, P s → Q (g s).1 (g s).2) :
    Triple P (Faulty.pureState g : Faulty ε σ α) Q E C :=
  fun s _ hs => h s hs

theorem operation {e : ε} {g : σ → α × σ} (h : ∀ s, P s → Q (g s).1 (g s).2)
    (hfail : ∀ s, P s → E e s) (hcrash : ∀ s, P s → C s) :
    Triple P (Faulty.operation e g) Q E C := by
  intro s fates hs
  rcases fates with _ | ⟨_ | _ | _, fates⟩
  · exact h s hs
  · exact h s hs
  · exact hfail s hs
  · exact hcrash s hs

theorem bind {f : α → Faulty ε σ β} (hm : Triple P m Q E C) (hf : ∀ a, Triple (Q a) (f a) R E C) :
    Triple P (m >>= f) R E C := by
  intro s fates hs
  have h := hm s fates hs
  rcases hr : m (s, fates) with ⟨r, s', fates'⟩
  rw [hr] at h
  rcases r with e | a
  · rw [Effect.bind_of_error hr]
    cases e <;> exact h
  · rw [Effect.bind_of_ok hr]
    exact hf a s' fates' h

theorem mono (hm : Triple P m Q E C) (hP : ∀ s, P' s → P s) (hQ : ∀ a s, Q a s → Q' a s)
    (hE : ∀ e s, E e s → E' e s) (hC : ∀ s, C s → C' s) : Triple P' m Q' E' C' := by
  intro s fates hs
  have h := hm s fates (hP s hs)
  rcases hr : m (s, fates) with ⟨r, s', fates'⟩
  rw [hr] at h
  rcases r with (e | _) | a
  · exact hE e s' h
  · exact hC s' h
  · exact hQ a s' h

theorem tryFinally {cleanup : Faulty ε σ Unit} (hm : Triple P m Q E C)
    (hok : ∀ a, Triple (Q a) cleanup (fun _ => Q' a) E' C)
    (hraised : ∀ e, Triple (E e) cleanup (fun _ => E' e) E' C) :
    Triple P (Faulty.tryFinally m cleanup) Q' E' C := by
  intro s fates hs
  have h := hm s fates hs
  unfold Faulty.tryFinally
  rcases hr : m (s, fates) with ⟨r, s', fates'⟩
  rw [hr] at h
  rcases r with (e | _) | a
  · exact (bind (hraised e) fun _ => raise fun _ h' => h') s' fates' h
  · exact h
  · exact (bind (hok a) fun _ => pure fun _ h' => h') s' fates' h

theorem tryExcept {handler : ε → Faulty ε σ α} (hm : Triple P m Q E C)
    (hhandler : ∀ e, Triple (E e) (handler e) Q E' C) :
    Triple P (Faulty.tryExcept m handler) Q E' C := by
  intro s fates hs
  have h := hm s fates hs
  unfold Faulty.tryExcept
  rcases hr : m (s, fates) with ⟨r, s', fates'⟩
  rw [hr] at h
  rcases r with (e | _) | a
  · exact hhandler e s' fates' h
  · exact h
  · exact h

/-- An operation that keeps `I`. -/
theorem keeps_operation {I : σ → Prop} {e : ε} {g : σ → α × σ} (h : ∀ s, I s → I (g s).2) :
    Triple I (Faulty.operation e g) (fun _ => I) (fun _ => I) I :=
  operation h (fun _ hs => hs) fun _ hs => hs

/-- A fact that does not depend on the store. -/
theorem of_fact {φ : Prop} (h : φ → Triple P m Q E C) : Triple (fun s => φ ∧ P s) m Q E C :=
  fun s fates hs => h hs.1 s fates hs.2

/-- A value the precondition speaks about. -/
theorem of_exists {ι : Type} {P : ι → σ → Prop} (h : ∀ i, Triple (P i) m Q E C) :
    Triple (fun s => ∃ i, P i s) m Q E C :=
  fun s fates ⟨i, hs⟩ => h i s fates hs

end Triple

/-- What a program raises when every operation is carried out. -/
def Steady (m : Faulty ε σ α) (φ : ε → Prop) : Prop :=
  ∀ s, (∃ a s', m (s, []) = (.ok a, s', [])) ∨ ∃ e s', m (s, []) = (.error (.raised e), s', []) ∧ φ e

variable {φ ψ : ε → Prop}

namespace Steady

theorem pure (a : α) : Steady (Pure.pure a : Faulty ε σ α) φ := fun s => .inl ⟨a, s, rfl⟩

theorem raise {e : ε} (h : φ e) : Steady (Faulty.raise e : Faulty ε σ α) φ :=
  fun s => .inr ⟨e, s, rfl, h⟩

theorem ofExcept {r : Except ε α} (h : ∀ e, r = .error e → φ e) :
    Steady (Faulty.ofExcept r : Faulty ε σ α) φ := by
  cases r with
  | ok a => exact pure a
  | error e => exact raise (h e rfl)

theorem pureState (g : σ → α × σ) : Steady (Faulty.pureState g : Faulty ε σ α) φ :=
  fun _ => .inl ⟨_, _, rfl⟩

theorem operation (e : ε) (g : σ → α × σ) : Steady (Faulty.operation e g) φ :=
  fun _ => .inl ⟨_, _, rfl⟩

theorem bind (hm : Steady m φ) (hf : ∀ a, Steady (f a) φ) : Steady (m >>= f) φ := by
  intro s
  rcases hm s with ⟨a, s', h⟩ | ⟨e, s', h, he⟩
  · rw [Effect.bind_of_ok h]
    exact hf a s'
  · rw [Effect.bind_of_error h]
    exact .inr ⟨e, s', rfl, he⟩

theorem forList {xs : List α} {f : α → Faulty ε σ β} (h : ∀ x ∈ xs, Steady (f x) φ) :
    Steady (Effect.forList f xs) φ := by
  induction xs with
  | nil => exact pure []
  | cons x xs ih =>
    refine (h x List.mem_cons_self).bind fun y => ?_
    refine (ih fun x' hx' => h x' (List.mem_cons_of_mem _ hx')).bind fun ys => ?_
    exact pure (y :: ys)

theorem tryFinally {cleanup : Faulty ε σ Unit} (hm : Steady m φ) (hcleanup : Steady cleanup φ) :
    Steady (Faulty.tryFinally m cleanup) φ := by
  intro s
  unfold Faulty.tryFinally
  rcases hm s with ⟨a, s', h⟩ | ⟨e, s', h, he⟩
  · rw [h]
    exact bind hcleanup (fun _ => pure a) s'
  · rw [h]
    exact bind hcleanup (fun _ => raise he) s'

theorem tryExcept {handler : ε → Faulty ε σ α} (hm : Steady m ψ)
    (hhandler : ∀ e, ψ e → Steady (handler e) φ) : Steady (Faulty.tryExcept m handler) φ := by
  intro s
  unfold Faulty.tryExcept
  rcases hm s with ⟨a, s', h⟩ | ⟨e, s', h, he⟩
  · rw [h]
    exact .inl ⟨a, s', rfl⟩
  · rw [h]
    exact hhandler e he s'

end Steady

end Faulty
