import Mathlib.Data.List.Infix
import Mathlib.Logic.Function.Basic

/-!
# Dialogues

A script says in which order two parties speak. `project` makes the program of one party from it: the
party sends what the script has it say, and waits for as many items as the other party says. The two
programs run side by side over two streams, each of which delivers what was sent in order and in pieces
of any size. Such programs act the script out (`acts_project`): in every state of a run each party has
heard only what the script has the other one say, and all that comes before its own words, and every
run comes to an end, where each party has heard everything.
-/

namespace Dialogue

variable {β : Type}

inductive Party where
  | caller | callee
  deriving DecidableEq, Repr

def Party.other : Party → Party
  | .caller => .callee
  | .callee => .caller

@[simp] theorem Party.other_other (p : Party) : p.other.other = p := by
  cases p <;> rfl

@[simp] theorem Party.other_ne (p : Party) : p.other ≠ p := by
  cases p <;> decide

theorem Party.eq_other {p q : Party} (h : q ≠ p) : q = p.other := by
  cases p <;> cases q <;> simp_all [Party.other]

/-- Who speaks, with what is said before the other party answers. -/
abbrev Script (β : Type) := List (Party × List β)

inductive Command (β : Type) where
  | send (payload : List β)
  | recv (count : Nat)
  deriving DecidableEq, Repr

/-- The command of one party for a turn of the script. -/
def command (p : Party) (turn : Party × List β) : Command β :=
  if turn.1 = p then .send turn.2 else .recv turn.2.length

/-- The program of one party. -/
def project (p : Party) (script : Script β) : List (Command β) := script.map (command p)

/-- All that the script has a party say. -/
def said (p : Party) (script : Script β) : List β :=
  script.flatMap fun turn => if turn.1 = p then turn.2 else []

@[simp] theorem said_nil (p : Party) : said p ([] : Script β) = [] := rfl

theorem said_append (p : Party) (xs ys : Script β) : said p (xs ++ ys) = said p xs ++ said p ys :=
  List.flatMap_append

theorem said_singleton (p : Party) (turn : Party × List β) :
    said p [turn] = if turn.1 = p then turn.2 else [] :=
  List.append_nil _

theorem said_take_le (p : Party) (script : Script β) (k : Nat) :
    said p (script.take k) <+: said p script := by
  conv_rhs => rw [← List.take_append_drop k script, said_append]
  exact List.prefix_append _ _

theorem said_take_mono (p : Party) (script : Script β) {k m : Nat} (h : k ≤ m) :
    said p (script.take k) <+: said p (script.take m) := by
  have htake := said_take_le p (script.take m) k
  rwa [List.take_take, min_eq_left h] at htake

/-- One more turn. -/
theorem said_take_succ (p : Party) {script : Script β} {k : Nat} {turn : Party × List β}
    (h : script[k]? = some turn) :
    said p (script.take (k + 1)) = said p (script.take k) ++ if turn.1 = p then turn.2 else [] := by
  rw [List.take_add_one, h, Option.toList_some, said_append, said_singleton]

/-- The program after `k` turns begins with the command of the next one. -/
theorem project_drop (p : Party) {script : Script β} {k : Nat} {turn : Party × List β}
    (h : script[k]? = some turn) :
    project p (script.drop k) = command p turn :: project p (script.drop (k + 1)) := by
  obtain ⟨hk, rfl⟩ := List.getElem?_eq_some_iff.mp h
  rw [List.drop_eq_getElem_cons hk]
  rfl

/-! ### Runs -/

/-- A party: what its program has still to do, what it has sent, what has reached it, and how much of
that its program has waited for. -/
structure Peer (β : Type) where
  rest : List (Command β)
  sent : List β := []
  arrived : List β := []
  read : Nat := 0

abbrev State (β : Type) := Party → Peer β

/-- Both parties at the beginning of their programs. -/
def start (caller callee : List (Command β)) : State β
  | .caller => { rest := caller }
  | .callee => { rest := callee }

/-- A party sends, or goes on because enough has reached it, or the next piece of what the other one
has sent reaches it. -/
inductive Step (s : State β) : State β → Prop where
  | send (p : Party) (payload : List β) (rest : List (Command β))
      (h : (s p).rest = .send payload :: rest) :
      Step s (Function.update s p { s p with rest, sent := (s p).sent ++ payload })
  | recv (p : Party) (count : Nat) (rest : List (Command β)) (h : (s p).rest = .recv count :: rest)
      (henough : (s p).read + count ≤ (s p).arrived.length) :
      Step s (Function.update s p { s p with rest, read := (s p).read + count })
  | deliver (p : Party) (piece : List β) (hne : piece ≠ [])
      (h : (s p).arrived ++ piece <+: (s p.other).sent) :
      Step s (Function.update s p { s p with arrived := (s p).arrived ++ piece })

/-- A run of `n` steps. -/
inductive Runs (s : State β) : Nat → State β → Prop where
  | refl : Runs s 0 s
  | step {n : Nat} {s₁ s₂ : State β} (h : Runs s n s₁) (hstep : Step s₁ s₂) : Runs s (n + 1) s₂

/-- Two programs act a script out. At any time a party is at some turn of the script: it has said its
own words before that turn, and has heard the other's words before that turn, and no others than
those of the script. Runs are bounded, and one that cannot go on has come to the end of the script. -/
structure Acts (script : Script β) (caller callee : List (Command β)) : Prop where
  inOrder : ∀ {n : Nat} {s : State β}, Runs (start caller callee) n s → ∀ p,
    ∃ k, (s p).sent = said p (script.take k) ∧ said p.other (script.take k) <+: (s p).arrived ∧
      (s p).arrived <+: said p.other script
  bounded : ∀ {n : Nat} {s : State β}, Runs (start caller callee) n s →
    n ≤ 2 * script.length + (said .caller script).length + (said .callee script).length
  complete : ∀ {n : Nat} {s : State β}, Runs (start caller callee) n s → (∀ s', ¬Step s s') →
    ∀ p, (s p).rest = [] ∧ (s p).sent = said p script ∧ (s p).arrived = said p.other script

/-! ### The programs of a script -/

/-- The parties have done the given number of turns each. A party that has done `k` turns has sent its
own words of these, and has waited for those of the other party. -/
structure Follows (script : Script β) (s : State β) (done : Party → Nat) : Prop where
  le : ∀ p, done p ≤ script.length
  rest : ∀ p, (s p).rest = project p (script.drop (done p))
  sent : ∀ p, (s p).sent = said p (script.take (done p))
  read : ∀ p, (s p).read = (said p.other (script.take (done p))).length
  readable : ∀ p, (s p).read ≤ (s p).arrived.length
  arrived : ∀ p, (s p).arrived <+: (s p.other).sent

/-- What has happened in a run. -/
def progress (s : State β) (done : Party → Nat) : Nat :=
  done .caller + done .callee + (s .caller).arrived.length + (s .callee).arrived.length

section

variable {script : Script β} {s s' : State β} {done : Party → Nat}

theorem follows_start : Follows script (start (project .caller script) (project .callee script))
    fun _ => 0 := by
  refine ⟨fun _ => Nat.zero_le _, ?_, ?_, ?_, ?_, ?_⟩ <;> rintro (_ | _) <;> simp [start]

/-- The turn that a party with a program left is at. -/
theorem Follows.turn (h : Follows script s done) {p : Party} {c : Command β} {rest : List (Command β)}
    (hrest : (s p).rest = c :: rest) :
    ∃ turn, script[done p]? = some turn ∧ c = command p turn ∧
      rest = project p (script.drop (done p + 1)) := by
  cases hturn : script[done p]? with
  | none =>
    have hnil := h.rest p
    rw [List.drop_eq_nil_of_le (List.getElem?_eq_none_iff.mp hturn), hrest] at hnil
    cases hnil
  | some turn =>
    have hcons := h.rest p
    rw [project_drop p hturn, hrest, List.cons.injEq] at hcons
    exact ⟨turn, rfl, hcons.1, hcons.2⟩

theorem progress_lt {p : Party} {x : Peer β} {k : Nat}
    (h : done p + (s p).arrived.length < k + x.arrived.length) :
    progress s done < progress (Function.update s p x) (Function.update done p k) := by
  cases p <;> simp only [progress, Function.update_self, ne_eq, reduceCtorEq, not_false_eq_true,
    Function.update_of_ne] <;> omega

/-- A party that does its next turn: what it does not do itself stays. -/
theorem Follows.advance (h : Follows script s done) {p : Party} {turn : Party × List β} {x : Peer β}
    (hturn : script[done p]? = some turn) (hrest : x.rest = project p (script.drop (done p + 1)))
    (hsent : x.sent = said p (script.take (done p + 1)))
    (hread : x.read = (said p.other (script.take (done p + 1))).length)
    (harrived : x.arrived = (s p).arrived) (hreadable : x.read ≤ x.arrived.length) :
    Follows script (Function.update s p x) (Function.update done p (done p + 1)) := by
  have hlt : done p < script.length := (List.getElem?_eq_some_iff.mp hturn).1
  refine ⟨fun q => ?_, fun q => ?_, fun q => ?_, fun q => ?_, fun q => ?_, fun q => ?_⟩ <;>
    by_cases hq : q = p
  · rw [hq, Function.update_self]
    exact hlt
  · rw [Function.update_of_ne hq]
    exact h.le q
  · rw [hq, Function.update_self, Function.update_self, hrest]
  · rw [Function.update_of_ne hq, Function.update_of_ne hq, h.rest q]
  · rw [hq, Function.update_self, Function.update_self, hsent]
  · rw [Function.update_of_ne hq, Function.update_of_ne hq, h.sent q]
  · rw [hq, Function.update_self, Function.update_self, hread]
  · rw [Function.update_of_ne hq, Function.update_of_ne hq, h.read q]
  · rw [hq, Function.update_self]
    exact hreadable
  · rw [Function.update_of_ne hq]
    exact h.readable q
  · subst hq
    rw [Function.update_self, Function.update_of_ne q.other_ne, harrived]
    exact h.arrived q
  · -- the other party hears what this one has sent by now
    obtain rfl := Party.eq_other hq
    rw [Function.update_of_ne hq, Party.other_other, Function.update_self, hsent]
    refine (h.arrived p.other).trans ?_
    rw [Party.other_other, h.sent p]
    exact said_take_mono p script (Nat.le_succ _)

/-- One step keeps the parties in the script, and gets them on. -/
theorem Follows.step (h : Follows script s done) (hstep : Step s s') :
    ∃ done', Follows script s' done' ∧ progress s done < progress s' done' := by
  cases hstep with
  | send p payload rest hrest =>
    obtain ⟨turn, hturn, hcommand, hrest'⟩ := h.turn hrest
    have hspeaks : turn.1 = p ∧ turn.2 = payload := by
      unfold command at hcommand
      split at hcommand
      · rename_i hp
        exact ⟨hp, (Command.send.inj hcommand).symm⟩
      · cases hcommand
    refine ⟨_, h.advance hturn hrest' ?_ ?_ rfl (h.readable p), ?_⟩
    · rw [said_take_succ p hturn, if_pos hspeaks.1, hspeaks.2, h.sent p]
    · rw [said_take_succ p.other hturn, if_neg, List.append_nil]
      · exact h.read p
      · rw [hspeaks.1]
        exact p.other_ne.symm
    · exact progress_lt (Nat.add_lt_add_right (Nat.lt_succ_self _) _)
  | recv p count rest hrest henough =>
    obtain ⟨turn, hturn, hcommand, hrest'⟩ := h.turn hrest
    have hlistens : turn.1 = p.other ∧ count = turn.2.length := by
      unfold command at hcommand
      split at hcommand
      · cases hcommand
      · rename_i hp
        exact ⟨Party.eq_other hp, Command.recv.inj hcommand⟩
    refine ⟨_, h.advance hturn hrest' ?_ ?_ rfl henough, ?_⟩
    · rw [said_take_succ p hturn, if_neg, List.append_nil]
      · exact h.sent p
      · rw [hlistens.1]
        exact p.other_ne
    · rw [said_take_succ p.other hturn, if_pos hlistens.1, List.length_append, ← h.read p,
        hlistens.2]
    · exact progress_lt (Nat.add_lt_add_right (Nat.lt_succ_self _) _)
  | deliver p piece hne harrives =>
    refine ⟨done, ⟨h.le, fun q => ?_, fun q => ?_, fun q => ?_, fun q => ?_, fun q => ?_⟩, ?_⟩
    · by_cases hq : q = p
      · rw [hq, Function.update_self]
        exact h.rest p
      · rw [Function.update_of_ne hq]
        exact h.rest q
    · by_cases hq : q = p
      · rw [hq, Function.update_self]
        exact h.sent p
      · rw [Function.update_of_ne hq]
        exact h.sent q
    · by_cases hq : q = p
      · rw [hq, Function.update_self]
        exact h.read p
      · rw [Function.update_of_ne hq]
        exact h.read q
    · by_cases hq : q = p
      · rw [hq, Function.update_self, List.length_append]
        exact (h.readable p).trans (Nat.le_add_right _ _)
      · rw [Function.update_of_ne hq]
        exact h.readable q
    · by_cases hq : q = p
      · subst hq
        rw [Function.update_self, Function.update_of_ne q.other_ne]
        exact harrives
      · obtain rfl := Party.eq_other hq
        rw [Function.update_of_ne hq, Party.other_other, Function.update_self]
        have harrived := h.arrived p.other
        rwa [Party.other_other] at harrived
    · have hpiece := List.length_pos_iff.mpr hne
      have hlonger : (s p).arrived.length < ((s p).arrived ++ piece).length := by
        rw [List.length_append]
        omega
      have hlt : progress s done < progress
          (Function.update s p { s p with arrived := (s p).arrived ++ piece })
          (Function.update done p (done p)) :=
        progress_lt (Nat.add_lt_add_left hlonger _)
      rwa [Function.update_eq_self] at hlt

/-- In every run the parties stay in the script, and each step gets them on. -/
theorem follows_of_runs {n : Nat}
    (h : Runs (start (project .caller script) (project .callee script)) n s) :
    ∃ done, Follows script s done ∧ n ≤ progress s done := by
  induction h with
  | refl => exact ⟨_, follows_start, Nat.zero_le _⟩
  | step _ hstep ih =>
    obtain ⟨done, hfollows, hn⟩ := ih
    obtain ⟨done', hfollows', hlt⟩ := hfollows.step hstep
    exact ⟨done', hfollows', by omega⟩

theorem Follows.arrived_said (h : Follows script s done) (p : Party) :
    (s p).arrived <+: said p.other script := by
  have harrived := h.arrived p
  rw [h.sent p.other] at harrived
  exact harrived.trans (said_take_le _ _ _)

/-- What a party has waited for has reached it. -/
theorem Follows.heard (h : Follows script s done) (p : Party) :
    said p.other (script.take (done p)) <+: (s p).arrived := by
  have hlength := h.readable p
  rw [h.read p] at hlength
  exact List.prefix_of_prefix_length_le (said_take_le _ _ _) (h.arrived_said p) hlength

/-- No run has more steps than there are commands and items to deliver. -/
theorem runs_bounded {n : Nat}
    (h : Runs (start (project .caller script) (project .callee script)) n s) :
    n ≤ 2 * script.length + (said .caller script).length + (said .callee script).length := by
  obtain ⟨done, hfollows, hn⟩ := follows_of_runs h
  have hcaller := (hfollows.arrived_said .caller).length_le
  have hcallee := (hfollows.arrived_said .callee).length_le
  have hdone := hfollows.le
  have hdone₁ := hdone .caller
  have hdone₂ := hdone .callee
  simp only [Party.other] at hcaller hcallee
  unfold progress at hn
  omega

/-- A party that cannot go on, where everything sent has been delivered, has done no fewer turns than
the other one only if it has done all of them. -/
theorem Follows.blocked (h : Follows script s done) (hstuck : ∀ s', ¬Step s s')
    (hdelivered : ∀ p, (s p).arrived = (s p.other).sent) {p : Party} (hle : done p ≤ done p.other) :
    done p = script.length := by
  by_contra hne
  have hlt : done p < script.length := Nat.lt_of_le_of_ne (h.le p) hne
  obtain ⟨turn, hturn⟩ : ∃ turn, script[done p]? = some turn :=
    ⟨_, List.getElem?_eq_getElem hlt⟩
  have hrest := h.rest p
  rw [project_drop p hturn] at hrest
  by_cases hspeaks : turn.1 = p
  · rw [command, if_pos hspeaks] at hrest
    exact hstuck _ (.send p _ _ hrest)
  · rw [command, if_neg hspeaks] at hrest
    have hother := Party.eq_other hspeaks
    rcases Nat.eq_or_lt_of_le hle with heq | hahead
    · -- the other party is at the same turn, and it is its turn to speak
      have hrest' := h.rest p.other
      rw [← heq, project_drop p.other hturn, command, if_pos hother] at hrest'
      exact hstuck _ (.send p.other _ _ hrest')
    · -- the other party has already spoken
      refine hstuck _ (.recv p _ _ hrest ?_)
      have hspoken := (said_take_mono p.other script (show done p + 1 ≤ done p.other from
        hahead)).length_le
      rw [said_take_succ p.other hturn, if_pos hother, List.length_append] at hspoken
      rw [h.read p, hdelivered p, h.sent p.other]
      exact hspoken

/-- A run ends only when both programs have ended and each party has heard all the other one says. -/
theorem complete_of_stuck {n : Nat}
    (h : Runs (start (project .caller script) (project .callee script)) n s)
    (hstuck : ∀ s', ¬Step s s') (p : Party) :
    (s p).rest = [] ∧ (s p).sent = said p script ∧ (s p).arrived = said p.other script := by
  obtain ⟨done, hfollows, -⟩ := follows_of_runs h
  have hdelivered : ∀ p, (s p).arrived = (s p.other).sent := by
    intro p
    obtain ⟨piece, hpiece⟩ := hfollows.arrived p
    by_cases hne : piece = []
    · rw [← hpiece, hne, List.append_nil]
    · exact absurd (.deliver p piece hne (hpiece ▸ List.prefix_rfl)) (hstuck _)
  have hdone : ∀ p, done p = script.length := by
    intro p
    rcases Nat.le_total (done p) (done p.other) with hle | hle
    · exact hfollows.blocked hstuck hdelivered hle
    · have hother := hfollows.blocked hstuck hdelivered (p := p.other) (by rwa [Party.other_other])
      exact Nat.le_antisymm (hfollows.le p) (hother ▸ hle)
  refine ⟨?_, ?_, ?_⟩
  · rw [hfollows.rest p, hdone p, List.drop_length]
    rfl
  · rw [hfollows.sent p, hdone p, List.take_length]
  · rw [hdelivered p, hfollows.sent p.other, hdone p.other, List.take_length]

/-- The programs of a script act it out. -/
theorem acts_project (script : Script β) :
    Acts script (project .caller script) (project .callee script) where
  inOrder h p := by
    obtain ⟨done, hfollows, -⟩ := follows_of_runs h
    exact ⟨done p, hfollows.sent p, hfollows.heard p, hfollows.arrived_said p⟩
  bounded := runs_bounded
  complete := complete_of_stuck

end

end Dialogue
