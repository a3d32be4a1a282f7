/-
This file proves that the interval of some leases is exact. The shortest lease is the least in the
linear order of spans, so it depends only on which spans there are; three quarters of it is computed
within the widths of its words at every length, and taking three quarters respects the order. Hence
the interval may be computed in either of two ways: from the shortest lease, or as the shortest of
the intervals that the leases would give alone.
-/
import SecretRenewal.Lease
import Mathlib.Data.List.Forall2
import Mathlib.Order.MinMax

namespace SecretRenewal

/-- Spans are ordered by their length. -/
instance : LinearOrder Duration where
  le_refl span := Nat.le_refl span.nanos
  le_trans _ _ _ := Nat.le_trans
  lt_iff_le_not_ge _ _ := Nat.lt_iff_le_and_not_ge
  le_antisymm _ _ shorter longer := Duration.ext (Nat.le_antisymm shorter longer)
  le_total first second := Nat.le_total first.nanos second.nanos
  min_def _ _ := rfl
  toDecidableLE := inferInstance

namespace Lease

/-! ### The shortest lease -/

theorem shortest?_eq_min? (leases : List Duration) : shortest? leases = leases.min? := by
  cases leases with
  | nil => rfl
  | cons first rest => rfl

/-- The shortest of some leases is one of them that is no longer than any. -/
theorem shortest?_eq_some_iff {leases : List Duration} {shortest : Duration} :
    shortest? leases = some shortest ↔ shortest ∈ leases ∧ ∀ lease ∈ leases, shortest ≤ lease := by
  rw [shortest?_eq_min?]
  exact List.min?_eq_some_iff

theorem shortest?_eq_none_iff {leases : List Duration} : shortest? leases = none ↔ leases = [] := by
  rw [shortest?_eq_min?]
  exact List.min?_eq_none_iff

/-- Some leases and others have the same shortest one if the same spans occur among them. -/
theorem shortest?_congr {leases others : List Duration}
    (same : ∀ span, span ∈ leases ↔ span ∈ others) : shortest? leases = shortest? others := by
  refine Option.ext fun shortest => ?_
  rw [shortest?_eq_some_iff, shortest?_eq_some_iff, same shortest]
  exact and_congr_right fun _ => forall_congr' fun lease => by rw [same lease]

/-- A function that respects the order takes the shortest lease to the shortest of its values. -/
theorem shortest?_map {change : Duration → Duration} (mono : Monotone change)
    (leases : List Duration) : shortest? (leases.map change) = (shortest? leases).map change := by
  cases found : shortest? leases with
  | none =>
    rw [shortest?_eq_none_iff] at found
    rw [found]
    rfl
  | some shortest =>
    obtain ⟨member, least⟩ := shortest?_eq_some_iff.mp found
    refine shortest?_eq_some_iff.mpr ⟨List.mem_map_of_mem member, fun changed changedMember => ?_⟩
    obtain ⟨lease, leaseMember, rfl⟩ := List.mem_map.mp changedMember
    exact mono (least lease leaseMember)

/-- Where each lease is no longer than its counterpart, neither is the shortest. -/
theorem shortest?_le_of_forall₂ {leases others : List Duration} {shortest other : Duration}
    (longer : List.Forall₂ (· ≤ ·) leases others) (isShortest : shortest? leases = some shortest)
    (isOther : shortest? others = some other) : shortest ≤ other := by
  obtain ⟨otherMember, -⟩ := shortest?_eq_some_iff.mp isOther
  obtain ⟨-, least⟩ := shortest?_eq_some_iff.mp isShortest
  obtain ⟨lease, member, shorter⟩ : ∃ lease ∈ leases, lease ≤ other := by
    obtain ⟨place, inBounds, rfl⟩ := List.getElem_of_mem otherMember
    have inLeases : place < leases.length := longer.length_eq ▸ inBounds
    exact ⟨leases[place], List.getElem_mem inLeases, longer.get inLeases inBounds⟩
  exact le_trans (least lease member) shorter

/-! ### Three quarters -/

theorem threeQuarters_mono : Monotone threeQuarters := by
  intro first second shorter
  rw [Duration.le_def, nanos_threeQuarters, nanos_threeQuarters]
  exact Nat.div_le_div_right (Nat.mul_le_mul_right 3 shorter)

/-- Three quarters of a lease that is not zero is less than the lease. -/
theorem threeQuarters_lt {lease : Duration} (positive : 0 < lease.nanos) :
    threeQuarters lease < lease := by
  show (threeQuarters lease).nanos < lease.nanos
  rw [nanos_threeQuarters]
  omega

theorem threeQuarters_le (lease : Duration) : threeQuarters lease ≤ lease := by
  rw [Duration.le_def, nanos_threeQuarters]
  omega

/-- No step of the computation of an interval leaves its width. The product fits in 128 bits and
the seconds in 64, so neither is cut off; what remains is less than a second, and the two are the
parts of a span, the interval. -/
structure StaysInWidth (lease : Duration) : Prop where
  product : lease.nanos * 3 < wideLimit
  seconds : tripled lease / 4 / nanosPerSecond < secondsLimit
  subsecond : tripled lease / 4 % nanosPerSecond < nanosPerSecond
  span : Duration.ofParts? (tripled lease / 4 / nanosPerSecond)
    (tripled lease / 4 % nanosPerSecond) = some (threeQuarters lease)

theorem staysInWidth (lease : Duration) : StaysInWidth lease := by
  have exact : tripled lease / 4 = (threeQuarters lease).nanos := by
    rw [tripled_eq, nanos_threeQuarters]
  refine ⟨?_, ?_, ?_, ?_⟩
  · have bounded := lease.nanos_lt
    unfold wideLimit
    unfold secondsLimit nanosPerSecond at bounded
    omega
  · rw [exact]
    exact (threeQuarters lease).seconds_lt
  · rw [exact]
    exact (threeQuarters lease).subsecond_lt
  · rw [exact]
    exact (threeQuarters lease).ofParts?_seconds_subsecond

example : (threeQuarters Duration.longest).nanos = 13835058055282163711999999999 := by decide

/-! ### The interval of some leases -/

/-- A span that one of the leases has and none is shorter than. -/
def IsShortest (leases : List Lease) (shortest : Duration) : Prop :=
  (∃ lease ∈ leases, lease.duration = shortest) ∧ ∀ lease ∈ leases, shortest ≤ lease.duration

theorem shortest?_duration_eq_some_iff {leases : List Lease} {shortest : Duration} :
    shortest? (leases.map duration) = some shortest ↔ IsShortest leases shortest := by
  rw [shortest?_eq_some_iff, List.mem_map, List.forall_mem_map]
  rfl

/-- The interval is three quarters of the shortest lease, and there is one exactly if there is a
lease. -/
theorem aggregate_eq_some_iff {leases : List Lease} {interval : Duration} :
    aggregate leases = some interval ↔
      ∃ shortest, IsShortest leases shortest ∧ interval.nanos = 3 * shortest.nanos / 4 := by
  unfold aggregate
  rw [Option.map_eq_some_iff]
  refine exists_congr fun shortest => ?_
  rw [shortest?_duration_eq_some_iff, Nat.mul_comm, ← nanos_threeQuarters]
  exact and_congr_right fun _ => ⟨fun same => same ▸ rfl, fun same => Duration.ext same.symm⟩

theorem aggregate_eq_none_iff {leases : List Lease} : aggregate leases = none ↔ leases = [] := by
  unfold aggregate
  rw [Option.map_eq_none_iff, shortest?_eq_none_iff, List.map_eq_nil_iff]

/-- The interval of a single lease is three quarters of it. -/
theorem aggregate_singleton (lease : Lease) :
    aggregate [lease] = some (threeQuarters lease.duration) := rfl

/-- The interval depends only on which spans the leases have. -/
theorem aggregate_congr {leases others : List Lease}
    (same : ∀ span, (∃ lease ∈ leases, lease.duration = span) ↔
      ∃ other ∈ others, other.duration = span) : aggregate leases = aggregate others := by
  have durations : shortest? (leases.map duration) = shortest? (others.map duration) :=
    shortest?_congr fun span => by rw [List.mem_map, List.mem_map, same span]
  unfold aggregate
  rw [durations]

theorem aggregate_perm {leases others : List Lease} (same : leases.Perm others) :
    aggregate leases = aggregate others :=
  aggregate_congr fun _ => exists_congr fun _ => and_congr_left fun _ => same.mem_iff

/-- Where each lease is no longer than its counterpart, neither is the interval. -/
theorem aggregate_le_of_forall₂ {leases others : List Lease} {interval other : Duration}
    (longer : List.Forall₂ (fun lease other => lease.duration ≤ other.duration) leases others)
    (isInterval : aggregate leases = some interval) (isOther : aggregate others = some other) :
    interval ≤ other := by
  obtain ⟨shortest, isShortest, rfl⟩ := Option.map_eq_some_iff.mp isInterval
  obtain ⟨otherShortest, isOtherShortest, rfl⟩ := Option.map_eq_some_iff.mp isOther
  have spans : List.Forall₂ (· ≤ ·) (leases.map duration) (others.map duration) :=
    List.forall₂_map_left_iff.mpr (List.forall₂_map_right_iff.mpr longer)
  exact threeQuarters_mono (shortest?_le_of_forall₂ spans isShortest isOtherShortest)

theorem aggregate_of_isShortest {leases : List Lease} {shortest : Duration}
    (isShortest : IsShortest leases shortest) :
    aggregate leases = some (threeQuarters shortest) := by
  unfold aggregate
  rw [shortest?_duration_eq_some_iff.mpr isShortest]
  rfl

theorem refreshInterval_comm (first second : Duration) :
    refreshInterval first second = refreshInterval second first := by
  unfold refreshInterval
  rw [min_comm]

/-- The interval of some leases is the shortest of those that they would have alone. -/
theorem aggregate_eq_shortest? (leases : List Lease) :
    aggregate leases = shortest? (leases.filterMap fun lease => aggregate [lease]) := by
  have alone : (leases.filterMap fun lease => aggregate [lease]) =
      (leases.map duration).map threeQuarters := by
    simp only [aggregate_singleton, List.map_map, List.filterMap_eq_map', Function.comp_def]
  rw [alone, shortest?_map threeQuarters_mono]
  rfl

/-- A token lease with some leases of secrets: the shortest of the secrets stands for them all. -/
theorem aggregate_token_secrets (tokenLease : Duration) {secretLeases : List Duration}
    {shortest : Duration} (isShortest : shortest? secretLeases = some shortest) :
    aggregate (ofToken tokenLease :: secretLeases.map ofSecret) =
      some (refreshInterval tokenLease shortest) := by
  obtain ⟨member, least⟩ := shortest?_eq_some_iff.mp isShortest
  have durations : (ofToken tokenLease :: secretLeases.map ofSecret).map duration =
      tokenLease :: secretLeases := by
    simp [ofToken, ofSecret, Function.comp_def]
  have whole : shortest? (tokenLease :: secretLeases) = some (min tokenLease shortest) := by
    refine shortest?_eq_some_iff.mpr ⟨?_, fun lease inAll => ?_⟩
    · rcases min_choice tokenLease shortest with isToken | isSecret
      · exact List.mem_cons.mpr (.inl isToken)
      · exact List.mem_cons.mpr (.inr (isSecret.symm ▸ member))
    · rcases List.mem_cons.mp inAll with rfl | inSecrets
      · exact min_le_left ..
      · exact le_trans (min_le_right ..) (least lease inSecrets)
  unfold aggregate refreshInterval
  rw [durations, whole]
  rfl

/-- The interval of some leases is three quarters of the shortest, exact to the nanosecond at every
length, and the two ways of asking for it agree. -/
theorem aggregates_exactly (leases : List Lease) :
    (aggregate leases = none ↔ leases = []) ∧
    (∀ interval, aggregate leases = some interval ↔
      ∃ shortest, IsShortest leases shortest ∧ interval.nanos = 3 * shortest.nanos / 4) ∧
    (∀ lease, StaysInWidth lease) ∧
    (∀ others, (∀ span, (∃ lease ∈ leases, lease.duration = span) ↔
        ∃ other ∈ others, other.duration = span) →
      aggregate leases = aggregate others) ∧
    aggregate leases = shortest? (leases.filterMap fun lease => aggregate [lease]) ∧
    (∀ others, List.Forall₂ (fun lease other => lease.duration ≤ other.duration) leases others →
      ∀ interval longer, aggregate leases = some interval → aggregate others = some longer →
        interval ≤ longer) ∧
    (∀ interval shortest, aggregate leases = some interval → IsShortest leases shortest →
      interval ≤ shortest ∧ (0 < shortest.nanos → interval < shortest)) ∧
    (∀ first second, refreshInterval first second = refreshInterval second first) ∧
    ∀ tokenLease secretLeases, secretLeases ≠ [] → ∃ shortest,
      shortest? secretLeases = some shortest ∧
      aggregate (ofToken tokenLease :: secretLeases.map ofSecret) =
        some (refreshInterval tokenLease shortest) := by
  refine ⟨aggregate_eq_none_iff, fun _ => aggregate_eq_some_iff, staysInWidth,
    fun _ => aggregate_congr, aggregate_eq_shortest? leases,
    fun _ longer _ _ => aggregate_le_of_forall₂ longer,
    fun interval shortest found isShortest => ?_, refreshInterval_comm,
    fun tokenLease secretLeases nonempty => ?_⟩
  · rw [aggregate_of_isShortest isShortest] at found
    cases found
    exact ⟨threeQuarters_le shortest, threeQuarters_lt⟩
  · cases found : shortest? secretLeases with
    | none => exact absurd (shortest?_eq_none_iff.mp found) nonempty
    | some shortest => exact ⟨shortest, rfl, aggregate_token_secrets tokenLease found⟩

end Lease

end SecretRenewal
