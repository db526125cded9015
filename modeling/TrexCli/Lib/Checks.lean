import Mathlib.Algebra.BigOperators.Group.List.Basic
import Mathlib.Data.List.Forall2

/-!
# Sequences of checks

A computation in `Except` succeeds when its parts do: rules that turn the success of a sequence into
the facts that its parts establish, and those of a traversal into a relation between the elements of
two lists.
-/

namespace TrexCli

variable {ε α β : Type}

/-- A sequence succeeds when both parts do. -/
theorem bind_eq_ok {m : Except ε α} {f : α → Except ε β} {b : β} :
    (m >>= f) = .ok b ↔ ∃ a, m = .ok a ∧ f a = .ok b := by
  cases m with
  | error e =>
    show Except.error e = .ok b ↔ _
    simp
  | ok a =>
    show f a = .ok b ↔ _
    simp

/-- A sequence of checks passes when all do. -/
@[simp] theorem check_bind_eq_ok {check : Except ε Unit} {rest : Except ε β} {b : β} :
    (check >>= fun _ => rest) = .ok b ↔ check = .ok () ∧ rest = .ok b := by
  rw [bind_eq_ok]
  exact ⟨fun ⟨_, hcheck, hrest⟩ => ⟨hcheck, hrest⟩, fun ⟨hcheck, hrest⟩ => ⟨(), hcheck, hrest⟩⟩

theorem mapError_eq_ok {ε' : Type} {m : Except ε α} {f : ε → ε'} {a : α} :
    m.mapError f = .ok a ↔ m = .ok a := by
  cases m <;> simp [Except.mapError]

/-- The results of a computation for each element of a list. -/
theorem mapM_eq_ok {f : α → Except ε β} {xs : List α} {ys : List β} :
    xs.mapM f = .ok ys ↔ List.Forall₂ (fun x y => f x = .ok y) xs ys := by
  induction xs generalizing ys with
  | nil =>
    rw [List.mapM_nil, List.forall₂_nil_left_iff]
    show Except.ok [] = .ok ys ↔ ys = []
    simp [eq_comm]
  | cons x xs ih =>
    rw [List.mapM_cons, bind_eq_ok, List.forall₂_cons_left_iff]
    refine exists_congr fun y => ?_
    rw [bind_eq_ok]
    constructor
    · rintro ⟨hy, zs, hzs, hys⟩
      exact ⟨zs, hy, ih.mp hzs, (Except.ok.inj hys).symm⟩
    · rintro ⟨zs, hy, hzs, rfl⟩
      exact ⟨hy, zs, ih.mpr hzs, rfl⟩

/-- A traversal without an error. -/
theorem mapM_eq_ok_map {f : α → Except ε β} {g : α → β} {xs : List α} (h : ∀ x ∈ xs, f x = .ok (g x)) :
    xs.mapM f = .ok (xs.map g) := by
  rw [mapM_eq_ok, List.forall₂_map_right_iff, List.forall₂_same]
  exact h

theorem mapM_eq_some {f : α → Option β} {xs : List α} {ys : List β} :
    xs.mapM f = some ys ↔ List.Forall₂ (fun x y => f x = some y) xs ys := by
  induction xs generalizing ys with
  | nil => simp [List.forall₂_nil_left_iff, eq_comm]
  | cons x xs ih =>
    rw [List.mapM_cons, List.forall₂_cons_left_iff]
    simp only [Option.bind_eq_bind, Option.bind_eq_some_iff, ih, Option.pure_def, Option.some.injEq]
    exact ⟨fun ⟨y, hy, ys', hrest, heq⟩ => ⟨y, ys', hy, hrest, heq.symm⟩,
      fun ⟨y, ys', hy, hrest, heq⟩ => ⟨y, hy, ys', hrest, heq.symm⟩⟩

/-- A traversal of checks passes when each of them does. -/
theorem forM_eq_ok {check : α → Except ε Unit} {xs : List α} :
    xs.forM check = .ok () ↔ ∀ x ∈ xs, check x = .ok () := by
  induction xs with
  | nil => exact ⟨fun _ => List.forall_mem_nil _, fun _ => rfl⟩
  | cons x xs ih =>
    show (check x >>= fun _ => xs.forM check) = .ok () ↔ _
    rw [check_bind_eq_ok, ih, List.forall_mem_cons]

/-! ### Related lists -/

/-- What a test of the elements decides. -/
theorem forall_mem_of_all {p : α → Prop} [DecidablePred p] {xs : List α}
    (h : xs.all (fun x => decide (p x)) = true) : ∀ x ∈ xs, p x := fun x hx =>
  of_decide_eq_true (List.all_eq_true.mp h x hx)

theorem exists_right_of_forall₂ {R : α → β → Prop} {xs : List α} {ys : List β}
    (h : List.Forall₂ R xs ys) {x : α} (hx : x ∈ xs) : ∃ y ∈ ys, R x y := by
  induction h with
  | nil => simp at hx
  | cons hxy _ ih =>
    rcases List.mem_cons.mp hx with rfl | hx
    · exact ⟨_, List.mem_cons_self, hxy⟩
    · obtain ⟨y, hy, hR⟩ := ih hx
      exact ⟨y, List.mem_cons_of_mem _ hy, hR⟩

theorem exists_left_of_forall₂ {R : α → β → Prop} {xs : List α} {ys : List β}
    (h : List.Forall₂ R xs ys) {y : β} (hy : y ∈ ys) : ∃ x ∈ xs, R x y :=
  exists_right_of_forall₂ h.flip hy

/-- The sum over lists that belong to the elements of another. -/
theorem sum_of_forall₂ {M : Type} [AddMonoid M] {f : α → M} {g : β → M} {xs : List α}
    {yss : List (List β)} (h : List.Forall₂ (fun x ys => f x = (ys.map g).sum) xs yss) :
    (xs.map f).sum = (yss.flatten.map g).sum := by
  induction h with
  | nil => rfl
  | cons hx _ ih => simp [hx, ih]

/-! ### Prefixes of a run -/

/-- A property that each step keeps exactly under a condition holds after every prefix of a run
exactly when every step meets the condition. -/
theorem forall_take_iff {σ : Type} {step : σ → α → σ} {init : σ} {P : σ → Prop} {C : σ → α → Prop}
    (hinit : P init) (hstep : ∀ s x, P s → (P (step s x) ↔ C s x)) (xs : List α) :
    (∀ k, P ((xs.take k).foldl step init)) ↔
      ∀ k x, xs[k]? = some x → C ((xs.take k).foldl step init) x := by
  have hnext : ∀ k x, xs[k]? = some x →
      (xs.take (k + 1)).foldl step init = step ((xs.take k).foldl step init) x := by
    intro k x hx
    rw [List.take_add_one, hx, List.foldl_append]
    rfl
  constructor
  · intro h k x hx
    rw [← hstep _ _ (h k), ← hnext k x hx]
    exact h (k + 1)
  · intro h k
    induction k with
    | zero => exact hinit
    | succ k ih =>
      cases hx : xs[k]? with
      | none =>
        rw [List.take_add_one, hx, Option.toList_none, List.append_nil]
        exact ih
      | some x =>
        rw [hnext k x hx, hstep _ _ ih]
        exact h k x hx

end TrexCli
