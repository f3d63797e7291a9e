import Mathlib.Data.List.Basic

/-!
# Locks on ranges

Exclusive locks on ranges of a resource, as a list of those that are held.  A
lock is granted when no other owner holds an overlapping one, and an owner
releases what it holds on a resource all at once.  Locks that overlap then
always have one owner.
-/

namespace DZFile.RangeLocks

variable {Resource Owner : Type}

/-- A held lock. -/
structure RangeLock (Resource Owner : Type) where
  resource : Resource
  owner : Owner
  start : Nat
  length : Nat

/-- The ranges have an element in common. -/
def RangeLock.Overlaps (first second : RangeLock Resource Owner) : Prop :=
  first.resource = second.resource ∧
    first.start < second.start + second.length ∧
      second.start < first.start + first.length

instance [DecidableEq Resource] (first second : RangeLock Resource Owner) :
    Decidable (first.Overlaps second) :=
  inferInstanceAs (Decidable (_ ∧ _ ∧ _))

theorem RangeLock.Overlaps.symm
    {first second : RangeLock Resource Owner}
    (overlaps : first.Overlaps second) : second.Overlaps first :=
  ⟨overlaps.1.symm, overlaps.2.2, overlaps.2.1⟩

/-- Overlapping locks have one owner. -/
def Exclusive (locks : List (RangeLock Resource Owner)) : Prop :=
  ∀ first ∈ locks, ∀ second ∈ locks,
    first.Overlaps second → first.owner = second.owner

/-- No other owner holds an overlapping lock. -/
def grantable
    [DecidableEq Resource] [DecidableEq Owner]
    (locks : List (RangeLock Resource Owner))
    (lock : RangeLock Resource Owner) : Bool :=
  locks.all fun held => held.owner = lock.owner ∨ ¬ held.Overlaps lock

/-- The locks of the others, and those of the owner on other resources. -/
def release
    [DecidableEq Resource] [DecidableEq Owner]
    (locks : List (RangeLock Resource Owner))
    (owner : Owner) (resource : Resource) :
    List (RangeLock Resource Owner) :=
  locks.filter fun held => held.owner ≠ owner ∨ held.resource ≠ resource

/-- The locks of the others. -/
def releaseAll
    [DecidableEq Owner]
    (locks : List (RangeLock Resource Owner)) (owner : Owner) :
    List (RangeLock Resource Owner) :=
  locks.filter fun held => held.owner ≠ owner

/-- A granted lock overlaps with its owner's only. -/
theorem Exclusive.grant
    [DecidableEq Resource] [DecidableEq Owner]
    {locks : List (RangeLock Resource Owner)}
    {lock : RangeLock Resource Owner}
    (exclusive : Exclusive locks)
    (granted : grantable locks lock = true) :
    Exclusive (lock :: locks) := by
  have owned :
      ∀ held ∈ locks, held.Overlaps lock → held.owner = lock.owner := by
    intro held member overlaps
    have allowed := List.all_eq_true.mp granted held member
    rcases of_decide_eq_true allowed with same | apart
    · exact same
    · exact (apart overlaps).elim
  intro first firstMember second secondMember overlaps
  rcases List.mem_cons.mp firstMember with rfl | firstHeld
  · rcases List.mem_cons.mp secondMember with rfl | secondHeld
    · rfl
    · exact (owned second secondHeld overlaps.symm).symm
  · rcases List.mem_cons.mp secondMember with rfl | secondHeld
    · exact owned first firstHeld overlaps
    · exact exclusive first firstHeld second secondHeld overlaps

/-- Releasing locks creates no conflict. -/
theorem Exclusive.filter
    {locks : List (RangeLock Resource Owner)}
    (exclusive : Exclusive locks)
    (kept : RangeLock Resource Owner → Bool) :
    Exclusive (locks.filter kept) := by
  intro first firstMember second secondMember
  exact
    exclusive first (List.mem_filter.mp firstMember).1 second
      (List.mem_filter.mp secondMember).1

/-- Releasing the locks of one owner keeps those of another. -/
theorem mem_release_of_ne
    [DecidableEq Resource] [DecidableEq Owner]
    {locks : List (RangeLock Resource Owner)}
    {lock : RangeLock Resource Owner} {owner : Owner} {resource : Resource}
    (member : lock ∈ locks) (other : lock.owner ≠ owner) :
    lock ∈ release locks owner resource :=
  List.mem_filter.mpr ⟨member, by simp [other]⟩

@[inherit_doc mem_release_of_ne]
theorem mem_releaseAll_of_ne
    [DecidableEq Owner]
    {locks : List (RangeLock Resource Owner)}
    {lock : RangeLock Resource Owner} {owner : Owner}
    (member : lock ∈ locks) (other : lock.owner ≠ owner) :
    lock ∈ releaseAll locks owner :=
  List.mem_filter.mpr ⟨member, by simp [other]⟩

end DZFile.RangeLocks
