import Mathlib.Logic.Function.Basic

/-!
# Shares of a table

A table whose entries have owners.  An owner sees his share of it and sets
entries that are his own or free; then his share stays a share, and the
others' shares are what they were.
-/

namespace DZFile.Shares

variable {ι α : Type}

/-- Every entry of the share is one of the table. -/
def Within (share table : ι → Option α) : Prop :=
  ∀ i a, share i = some a → table i = some a

/-- No entry is in both shares. -/
def Apart (share theirs : ι → Option α) : Prop :=
  ∀ i, share i ≠ none → theirs i = none

theorem within_empty (table : ι → Option α) :
    Within (fun _ => none) table := by
  intro i a found
  cases found

/-- A number that is free in the table is free in every share. -/
theorem Within.free
    {share table : ι → Option α} (within : Within share table) {i : ι}
    (free : table i = none) :
    share i = none := by
  cases entry : share i with
  | none => rfl
  | some a =>
      rw [within i a entry] at free
      cases free

/-- The others have nothing where the owner may set an entry. -/
theorem free_of_own
    {share table theirs : ι → Option α} (within : Within theirs table)
    (apart : Apart share theirs) {i : ι}
    (own : share i ≠ none ∨ table i = none) :
    theirs i = none := by
  rcases own with mine | free
  · exact apart i mine
  · exact within.free free

theorem Apart.symm
    {share theirs : ι → Option α} (apart : Apart share theirs) :
    Apart theirs share := by
  intro i entered
  by_contra mine
  exact entered (apart i mine)

variable [DecidableEq ι]

/-- What an owner does to his share and to the table. -/
inductive Sets (share table : ι → Option α) :
    (ι → Option α) → (ι → Option α) → Prop where
  | same : Sets share table share table
  | entry (i : ι) (entry : Option α) (own : share i ≠ none ∨ table i = none) :
      Sets share table (Function.update share i entry)
        (Function.update table i entry)

section Rules

variable {share table share' table' theirs : ι → Option α}

theorem Within.sets
    (within : Within share table) (sets : Sets share table share' table') :
    Within share' table' := by
  cases sets with
  | same => exact within
  | entry i entry own =>
      intro j a found
      by_cases same : j = i
      · subst same
        rw [Function.update_self] at found ⊢
        exact found
      · rw [Function.update_of_ne same] at found ⊢
        exact within j a found

theorem Within.others
    (within : Within theirs table) (apart : Apart share theirs)
    (sets : Sets share table share' table') :
    Within theirs table' := by
  cases sets with
  | same => exact within
  | entry i entry own =>
      have nothing := free_of_own within apart own
      intro j a found
      have different : j ≠ i := by
        rintro rfl
        rw [nothing] at found
        cases found
      rw [Function.update_of_ne different]
      exact within j a found

theorem Apart.sets
    (within : Within theirs table) (apart : Apart share theirs)
    (sets : Sets share table share' table') :
    Apart share' theirs := by
  cases sets with
  | same => exact apart
  | entry i entry own =>
      intro j mine
      by_cases same : j = i
      · rw [same]
        exact free_of_own within apart own
      · rw [Function.update_of_ne same] at mine
        exact apart j mine

end Rules

end DZFile.Shares
