import Mathlib.Tactic.Positivity
import TrexCli.Policy.Checks

/-!
# Address ranges

`address_policy.py`: whether the networks of a policy cover a whole range of addresses.
-/

namespace TrexCli

/-- `network_address` and `broadcast_address` -/
def Network.interval (n : Network) : Nat × Nat :=
  let host := n.version.width - n.prefixLength
  (n.address >>> host <<< host, n.address >>> host <<< host + 2 ^ host - 1)

/-- The loop of `ipv4_range_allowed`: the intervals from the cursor on, up to the last address. -/
def coveredFrom (last : Nat) : Nat → List (Nat × Nat) → Bool
  | _, [] => false
  | cursor, (lower, upper) :: rest =>
    if upper < cursor then coveredFrom last cursor rest
    else if lower > cursor then false
    else if upper + 1 > last then true
    else coveredFrom last (upper + 1) rest

/-- `ipv4_range_allowed` -/
def ipv4RangeAllowed (first last : Nat) (networks : List Network) : Bool :=
  if first > last then false
  else coveredFrom last first
    (((networks.filter fun n => n.version = .v4).map Network.interval).mergeSort
      fun a b => a.1 < b.1 || (a.1 == b.1 && a.2 ≤ b.2))

/-! ### Coverage -/

/-- Every number of the range is in one of the intervals. -/
def RangeCovered (first last : Nat) (intervals : List (Nat × Nat)) : Prop :=
  ∀ value, first ≤ value → value ≤ last →
    ∃ interval ∈ intervals, interval.1 ≤ value ∧ value ≤ interval.2

/-- The sweep from a cursor on decides coverage, of intervals sorted by their lower ends. -/
theorem coveredFrom_iff {last : Nat} {intervals : List (Nat × Nat)}
    (hsorted : intervals.Pairwise fun a b => a.1 ≤ b.1) {cursor : Nat} (hcursor : cursor ≤ last) :
    coveredFrom last cursor intervals = true ↔ RangeCovered cursor last intervals := by
  induction intervals generalizing cursor with
  | nil =>
    rw [coveredFrom]
    constructor
    · exact fun h => nomatch h
    · intro h
      obtain ⟨interval, hmem, -⟩ := h cursor le_rfl hcursor
      cases hmem
  | cons interval rest ih =>
    obtain ⟨lower, upper⟩ := interval
    obtain ⟨hfirst, hrest⟩ := List.pairwise_cons.mp hsorted
    rw [coveredFrom]
    by_cases hskip : upper < cursor
    · -- the interval ends before the cursor
      rw [if_pos hskip, ih hrest hcursor]
      constructor
      · intro h value hge hle
        obtain ⟨interval, hmem, hin⟩ := h value hge hle
        exact ⟨interval, List.mem_cons_of_mem _ hmem, hin⟩
      · intro h value hge hle
        obtain ⟨interval, hmem, hin⟩ := h value hge hle
        rcases List.mem_cons.mp hmem with rfl | hmem
        · have := hin.2
          dsimp only at this
          omega
        · exact ⟨interval, hmem, hin⟩
    · rw [if_neg hskip]
      by_cases hhole : lower > cursor
      · -- no interval from here on has the cursor
        rw [if_pos hhole]
        constructor
        · exact fun h => nomatch h
        · intro h
          obtain ⟨interval, hmem, hlower, -⟩ := h cursor le_rfl hcursor
          rcases List.mem_cons.mp hmem with rfl | hmem
          · dsimp only at hlower
            omega
          · have := hfirst interval hmem
            dsimp only at this
            omega
      · rw [if_neg hhole]
        by_cases hdone : upper + 1 > last
        · rw [if_pos hdone]
          refine ⟨fun _ value hge hle => ?_, fun _ => rfl⟩
          refine ⟨(lower, upper), List.mem_cons_self, ?_, ?_⟩
          · dsimp only
            omega
          · dsimp only
            omega
        · rw [if_neg hdone, ih hrest (by omega)]
          constructor
          · intro h value hge hle
            by_cases hin : value ≤ upper
            · exact ⟨(lower, upper), List.mem_cons_self, by dsimp only; omega, hin⟩
            · obtain ⟨interval, hmem, hin⟩ := h value (by omega) hle
              exact ⟨interval, List.mem_cons_of_mem _ hmem, hin⟩
          · intro h value hge hle
            obtain ⟨interval, hmem, hin⟩ := h value (by omega) hle
            rcases List.mem_cons.mp hmem with rfl | hmem
            · have := hin.2
              dsimp only at this
              omega
            · exact ⟨interval, hmem, hin⟩

/-- The addresses of a network are those of its interval. -/
theorem Network.contains_iff (n : Network) (a : IpAddress) : n.contains a = true ↔
    a.version = n.version ∧ n.interval.1 ≤ a.value ∧ a.value ≤ n.interval.2 := by
  unfold contains interval
  simp only [decide_eq_true_eq, Nat.shiftRight_eq_div_pow, Nat.shiftLeft_eq]
  generalize n.version.width - n.prefixLength = host
  generalize n.address / 2 ^ host = block
  have hpos : 0 < 2 ^ host := by positivity
  refine and_congr_right fun _ => ?_
  exact Nat.div_eq_iff hpos

/-- The order in which the sweep takes the intervals. -/
theorem sorted_intervals (intervals : List (Nat × Nat)) :
    (intervals.mergeSort fun a b => a.1 < b.1 || (a.1 == b.1 && a.2 ≤ b.2)).Pairwise
      fun a b => a.1 ≤ b.1 := by
  have hsorted := @List.pairwise_mergeSort (Nat × Nat)
    (fun a b => a.1 < b.1 || (a.1 == b.1 && decide (a.2 ≤ b.2)))
    (by simp only [Bool.or_eq_true, Bool.and_eq_true, decide_eq_true_eq, beq_iff_eq]; omega)
    (by simp only [Bool.or_eq_true, Bool.and_eq_true, decide_eq_true_eq, beq_iff_eq]; omega)
    intervals
  refine hsorted.imp fun {a b} h => ?_
  simp only [Bool.or_eq_true, Bool.and_eq_true, decide_eq_true_eq, beq_iff_eq] at h
  omega

/-- A range of IPv4 addresses is allowed when it is one and each of its addresses is in an IPv4 network
of the list. -/
theorem ipv4RangeAllowed_iff (start stop : Fin (2 ^ 32)) (networks : List Network) :
    ipv4RangeAllowed start stop networks = true ↔
      start ≤ stop ∧ ∀ a : IpAddress, a.version = .v4 → start ≤ a.value → a.value ≤ stop →
        ∃ n ∈ networks, n.version = .v4 ∧ n.contains a = true := by
  unfold ipv4RangeAllowed
  rw [Fin.le_def]
  by_cases hempty : start.val > stop.val
  · rw [if_pos hempty]
    constructor
    · exact fun h => nomatch h
    · exact fun h => absurd h.1 (by omega)
  · rw [if_neg hempty, coveredFrom_iff (sorted_intervals _) (by omega)]
    constructor
    · intro h
      refine ⟨by omega, fun a hv4 hge hle => ?_⟩
      obtain ⟨interval, hmem, hin⟩ := h a.value hge hle
      rw [List.mem_mergeSort, List.mem_map] at hmem
      obtain ⟨n, hn, rfl⟩ := hmem
      obtain ⟨hn, hversion⟩ := List.mem_filter.mp hn
      have hversion : n.version = .v4 := of_decide_eq_true hversion
      exact ⟨n, hn, hversion, (n.contains_iff a).mpr ⟨hv4.trans hversion.symm, hin⟩⟩
    · rintro ⟨-, h⟩ value hge hle
      have hlt : value < 2 ^ IpVersion.v4.width := hle.trans_lt stop.isLt
      obtain ⟨n, hn, hversion, hcontains⟩ := h ⟨.v4, value, hlt⟩ rfl hge hle
      refine ⟨n.interval, ?_, ((n.contains_iff _).mp hcontains).2⟩
      rw [List.mem_mergeSort]
      exact List.mem_map_of_mem (List.mem_filter.mpr ⟨hn, decide_eq_true hversion⟩)

end TrexCli
