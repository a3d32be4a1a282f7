/-
This file holds a lock that is granted in the order in which it was asked for. Letting go hands
it straight to the first in line, who then holds it even before taking the next step, and
whoever stops waiting leaves the line. A lock is well formed when nobody waits for a free lock
and nobody occurs in it twice; every operation keeps that.
-/

namespace SecretRenewal

/-- A lock, who holds it and who waits for it. -/
structure Lock (claimant : Type) where
  /-- Who holds it. -/
  holder : Option claimant := none
  /-- Who waits for it, the first in line first. -/
  line : List claimant := []
  deriving DecidableEq

namespace Lock

variable {claimant : Type}

/-- A lock that nobody holds. -/
def free : Lock claimant := {}

/-- Asks for the lock: it is granted when it is free, and otherwise waited for. -/
def ask (lock : Lock claimant) (claim : claimant) : Lock claimant :=
  match lock.holder with
  | none => { lock with holder := some claim }
  | some _ => { lock with line := lock.line ++ [claim] }

/-- Lets go of the lock, which the first in line holds from then on. -/
def release (lock : Lock claimant) : Lock claimant := ⟨lock.line.head?, lock.line.tail⟩

/-- Lets go of the lock, or stops waiting for it. -/
def leave [DecidableEq claimant] (lock : Lock claimant) (claim : claimant) : Lock claimant :=
  if lock.holder = some claim then lock.release
  else { lock with line := lock.line.filter (· ≠ claim) }

/-- Whether someone holds the lock. -/
def isHeldBy [DecidableEq claimant] (lock : Lock claimant) (claim : claimant) : Bool :=
  lock.holder == some claim

/-- Everyone who holds the lock or waits for it. -/
def claims (lock : Lock claimant) : List claimant := lock.holder.toList ++ lock.line

/-- Nobody waits for a free lock, and nobody occurs twice. -/
def WellFormed (lock : Lock claimant) : Prop :=
  (lock.holder = none → lock.line = []) ∧ lock.claims.Nodup

/-- Asking adds a claim at the end. -/
@[simp] theorem claims_ask {lock : Lock claimant} (wellFormed : lock.WellFormed)
    (claim : claimant) : (lock.ask claim).claims = lock.claims ++ [claim] := by
  obtain ⟨holder, line⟩ := lock
  cases holder with
  | none =>
    have empty : line = [] := wellFormed.1 rfl
    subst empty
    rfl
  | some holder => rfl

/-- Letting go takes the first claim away. -/
@[simp] theorem claims_release (lock : Lock claimant) :
    lock.release.claims = lock.line := by
  obtain ⟨holder, line⟩ := lock
  cases line <;> rfl

theorem wellFormed_free : (free : Lock claimant).WellFormed := ⟨fun _ => rfl, List.nodup_nil⟩

theorem WellFormed.ask {lock : Lock claimant} (wellFormed : lock.WellFormed) {claim : claimant}
    (fresh : claim ∉ lock.claims) : (lock.ask claim).WellFormed := by
  refine ⟨fun isFree => ?_, ?_⟩
  · unfold Lock.ask at isFree
    split at isFree <;> simp_all
  · rw [claims_ask wellFormed, List.nodup_append]
    exact ⟨wellFormed.2, by simp, fun first member second isClaim same =>
      fresh (by rw [List.mem_singleton] at isClaim; rw [← isClaim, ← same]; exact member)⟩

theorem WellFormed.release {lock : Lock claimant} (wellFormed : lock.WellFormed) :
    lock.release.WellFormed := by
  refine ⟨fun isFree => ?_, ?_⟩
  · show lock.line.tail = []
    have empty : lock.line = [] := List.head?_eq_none_iff.mp isFree
    rw [empty]
    rfl
  · rw [claims_release]
    exact (List.nodup_append.mp wellFormed.2).2.1

/-! ### Who is in it -/

/-- The first of the claims is that of the holder. -/
theorem holder_of_claims {lock : Lock claimant} (wellFormed : lock.WellFormed)
    {first : claimant} {rest : List claimant} (claims : lock.claims = first :: rest) :
    lock.holder = some first := by
  obtain ⟨holder, line⟩ := lock
  cases holder with
  | none =>
    have empty : line = [] := wellFormed.1 rfl
    subst empty
    cases claims
  | some holder =>
    cases claims
    rfl

theorem mem_claims_ask {lock : Lock claimant} (wellFormed : lock.WellFormed)
    {claim other : claimant} :
    other ∈ (lock.ask claim).claims ↔ other ∈ lock.claims ∨ other = claim := by
  rw [claims_ask wellFormed, List.mem_append, List.mem_singleton]

/-- Whoever holds the lock keeps it while others ask. -/
theorem holder_ask_of_holder {lock : Lock claimant} {holder : claimant}
    (held : lock.holder = some holder) (claim : claimant) :
    (lock.ask claim).holder = some holder := by
  unfold ask
  rw [held]

section

variable [DecidableEq claimant]

/-- Leaving takes the claim out and no other. -/
theorem claims_leave {lock : Lock claimant} (wellFormed : lock.WellFormed) (claim : claimant) :
    (lock.leave claim).claims = lock.claims.filter (· ≠ claim) := by
  obtain ⟨holder, line⟩ := lock
  unfold leave
  split
  · rename_i held
    simp only at held
    subst held
    have others : ∀ other ∈ line, other ≠ claim := fun other member same =>
      (List.nodup_cons.mp wellFormed.2).1 (same ▸ member)
    rw [claims_release]
    simp only [claims, Option.toList_some, List.singleton_append, List.filter_cons, ne_eq,
      not_true_eq_false, decide_false, Bool.false_eq_true, if_false]
    exact (List.filter_eq_self.mpr fun other member => by simpa using others other member).symm
  · rename_i held
    cases holder with
    | none => rfl
    | some holder =>
      have different : holder ≠ claim := fun same => held (congrArg some same)
      simp [claims, different]

theorem mem_claims_leave {lock : Lock claimant} (wellFormed : lock.WellFormed)
    {claim other : claimant} :
    other ∈ (lock.leave claim).claims ↔ other ∈ lock.claims ∧ other ≠ claim := by
  rw [claims_leave wellFormed, List.mem_filter, decide_eq_true_eq]

/-- When the first claim is given up, the others move up. -/
theorem claims_leave_first {lock : Lock claimant} (wellFormed : lock.WellFormed)
    {first : claimant} {rest : List claimant} (claims : lock.claims = first :: rest) :
    (lock.leave first).claims = rest := by
  rw [leave, if_pos (holder_of_claims wellFormed claims), claims_release]
  unfold Lock.claims at claims
  rw [holder_of_claims wellFormed claims] at claims
  exact (List.cons.inj claims).2

/-- Whoever holds the lock keeps it while others leave. -/
theorem holder_leave_of_ne {lock : Lock claimant} {holder claim : claimant}
    (held : lock.holder = some holder) (different : holder ≠ claim) :
    (lock.leave claim).holder = some holder := by
  unfold leave
  rw [if_neg (by rw [held]; exact fun same => different (Option.some.inj same))]
  exact held

theorem WellFormed.leave {lock : Lock claimant} (wellFormed : lock.WellFormed)
    (claim : claimant) : (lock.leave claim).WellFormed := by
  refine ⟨?_, ?_⟩
  · by_cases held : lock.holder = some claim
    · rw [Lock.leave, if_pos held]
      exact wellFormed.release.1
    · rw [Lock.leave, if_neg held]
      intro isFree
      show lock.line.filter (· ≠ claim) = []
      rw [wellFormed.1 isFree, List.filter_nil]
  · rw [claims_leave wellFormed]
    exact wellFormed.2.sublist List.filter_sublist

end

end Lock

end SecretRenewal
