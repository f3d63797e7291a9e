import DZFile.HiddenNames

/-!
# Listing a directory

`dzfile_readdir` takes entries from a directory stream until it meets one it
may show.  `match_hiddenfile` gets the address of `d_name` alone, so for a
name of four to seven characters its second comparison starts in the record
that holds the name; the last byte in front of the name is `d_type`, which is
no character of `.DZF.tmp`.
-/

namespace DZFile.Listing

open DZFile.Names
open DZFile.Converter
open DZFile.HiddenNames

/-! ## Directory streams -/

/-- `isprint` in the C locale. -/
def isprint (char : Char) : Bool :=
  32 ≤ char.toNat && char.toNat < 127

/-- A `struct dirent`, and the bytes of it in front of `d_type`. -/
structure Dirent where
  before : List Char
  d_type : Char
  d_name : CString
  unprintable : isprint d_type = false
  noSlash : '/' ∉ d_name

/-- What a `DIR` has yet to return. -/
abbrev Dir := List Dirent

/-- `readdir`. -/
def readdir : Dir → Option Dirent × Dir
  | [] => (none, [])
  | dent :: rest => (some dent, rest)

/-- `match_hiddenfile(dent->d_name) == 1`. -/
def Dirent.hidden (dent : Dirent) : Bool :=
  match_hiddenfile (dent.before ++ [dent.d_type]) dent.d_name

/-- `dzfile_readdir`, which calls itself for an entry it does not show. -/
def dzfile_readdir (dirp : Dir) : Option Dirent × Dir :=
  match dirp with
  | [] => readdir []
  | dent :: rest =>
      if dent.hidden || dent.d_name = dotDzs then dzfile_readdir rest
      else readdir (dent :: rest)

/--
What a caller sees that calls `dzfile_readdir` until it returns `NULL`;
nothing when that takes more than the calls given.
-/
def listing : Nat → Dir → Option (List Dirent)
  | 0, _ => none
  | calls + 1, dirp =>
      match dzfile_readdir dirp with
      | (none, _) => some []
      | (some dent, rest) => (listing calls rest).map (dent :: ·)

/-! ## The entries it shows -/

/-- A name that starts with a dot and ends like an image or its temporary. -/
def ImageLike (name : CString) : Prop :=
  name.head? = some '.' ∧ (dotDZF <:+ name ∨ dotDZF ++ dotTmp <:+ name)

/-- A name that a listing shows. -/
def Visible (name : CString) : Prop :=
  name ≠ ['.'] ∧ name ≠ ['.', '.'] ∧ name ≠ dotDzs ∧ ¬ ImageLike name

instance (name : CString) : Decidable (ImageLike name) :=
  inferInstanceAs (Decidable (_ ∧ (_ ∨ _)))

instance (name : CString) : Decidable (Visible name) :=
  inferInstanceAs (Decidable (_ ∧ _ ∧ _ ∧ ¬ _))

/-- Every character of the ending is printable. -/
theorem isprint_of_mem {char : Char} (member : char ∈ dotDZF ++ dotTmp) :
    isprint char = true := by
  simp only [dotDZF, dotTmp, List.cons_append, List.nil_append,
    List.mem_cons, List.not_mem_nil, or_false] at member
  rcases member with rfl | rfl | rfl | rfl | rfl | rfl | rfl | rfl <;> rfl

/-- The comparison never succeeds on bytes in front of the name. -/
theorem suffix_record_iff (dent : Dirent) :
    dotDZF ++ dotTmp <:+ (dent.before ++ [dent.d_type]) ++ dent.d_name ↔
      dotDZF ++ dotTmp <:+ dent.d_name := by
  constructor
  · intro ending
    rcases Nat.lt_or_ge dent.d_name.length 8 with short | long
    · -- `d_type` would have to be a character of the ending
      have typed :
          dent.d_type :: dent.d_name <:+
            (dent.before ++ [dent.d_type]) ++ dent.d_name :=
        ⟨dent.before, by simp⟩
      have inside :=
        List.suffix_of_suffix_length_le typed ending
          (by simpa [dotDZF, dotTmp] using Nat.succ_le_of_lt short)
      have printable :=
        isprint_of_mem (inside.subset (List.mem_cons_self))
      rw [dent.unprintable] at printable
      cases printable
    · exact
        List.suffix_of_suffix_length_le ending (List.suffix_append _ _)
          (by simpa [dotDZF, dotTmp] using long)
  · intro ending
    exact ending.trans (List.suffix_append _ _)

/-- A name with one of the endings has at least four characters. -/
theorem ImageLike.length_le {name : CString} (like : ImageLike name) :
    4 ≤ name.length := by
  rcases like.2 with ending | ending
  · simpa [dotDZF] using ending.length_le
  · have longer := ending.length_le
    simp only [dotDZF, dotTmp, List.length_append, List.length_cons,
      List.length_nil] at longer
    omega

theorem hidden_eq_true_iff (dent : Dirent) :
    dent.hidden = true ↔
      dent.d_name = ['.'] ∨ dent.d_name = ['.', '.'] ∨
        ImageLike dent.d_name := by
  have noComponent := (strrchrSlash_eq_none_iff dent.d_name).mpr dent.noSlash
  simp only [Dirent.hidden, match_hiddenfile, noComponent, Option.getD_none]
  by_cases dots : dent.d_name = ['.'] ∨ dent.d_name = ['.', '.']
  · rw [if_pos dots]
    exact iff_of_true rfl (or_assoc.mp (Or.inl dots))
  · have whole := suffix_record_iff dent
    rw [if_neg dots, ← or_assoc, or_iff_right dots]
    simp only [Bool.and_eq_true, decide_eq_true_eq, beq_iff_eq,
      Bool.or_eq_true, List.isSuffixOf_iff_suffix, whole, and_assoc]
    constructor
    · exact fun test => test.2
    · exact fun like => ⟨like.length_le, like⟩

/-- The recursion goes on exactly at the entries that are not shown. -/
theorem passedOver_iff (dent : Dirent) :
    (dent.hidden || dent.d_name = dotDzs) = true ↔
      ¬ Visible dent.d_name := by
  rw [Bool.or_eq_true, hidden_eq_true_iff, decide_eq_true_iff, Visible]
  tauto

/-! ## The whole stream -/

/-- One call returns the first entry to show and leaves what follows it. -/
theorem dzfile_readdir_cons (dent : Dirent) (rest : Dir) :
    dzfile_readdir (dent :: rest) =
      if Visible dent.d_name then (some dent, rest)
      else dzfile_readdir rest := by
  rw [dzfile_readdir]
  by_cases shown : Visible dent.d_name
  · have stays := (passedOver_iff dent).not_left.mpr shown
    rw [if_neg stays, if_pos shown]
    rfl
  · rw [if_pos ((passedOver_iff dent).mpr shown), if_neg shown]

/-- Enough calls see the entries to show, and then `NULL`. -/
theorem listing_eq_filter
    {calls : Nat} {dirp : Dir} (enough : dirp.length < calls) :
    listing calls dirp =
      some (dirp.filter fun dent => Visible dent.d_name) := by
  induction dirp generalizing calls with
  | nil =>
      cases calls with
      | zero => simp at enough
      | succ calls => rfl
  | cons dent rest induction =>
      cases calls with
      | zero => simp at enough
      | succ calls =>
          rw [List.length_cons] at enough
          rw [listing, dzfile_readdir_cons]
          by_cases shown : Visible dent.d_name
          · have enough' : rest.length < calls := by omega
            simp [shown, induction enough']
          · have enough' : rest.length < calls + 1 := by omega
            have others := induction enough'
            rw [listing] at others
            simpa [shown] using others

/-- No path's image and no path's temporary file is shown. -/
theorem not_visible_of_target
    (target : Target) {name : CString}
    (generated :
      strrchrSlash target.h5name = some name ∨
        strrchrSlash target.temp = some name) :
    ¬ Visible name := by
  rcases exists_parts target with ⟨dir, base, noSlash, _, image, temp⟩
  rw [image, temp, strrchrSlash_append dir (slash_not_mem_hidden noSlash).1,
    strrchrSlash_append dir (slash_not_mem_hidden noSlash).2] at generated
  intro shown
  apply shown.2.2.2
  rcases generated with same | same
  · rw [← Option.some.inj same]
    exact ⟨rfl, Or.inl ⟨'.' :: base, rfl⟩⟩
  · rw [← Option.some.inj same]
    exact ⟨rfl, Or.inr ⟨'.' :: base, by simp⟩⟩

/--
Read until it returns `NULL`, a directory shows its visible entries in the
order of the stream and nothing else; images and temporary files are not
among them.
-/
theorem listing_shows_visible_entries (dirp : Dir) :
    listing (dirp.length + 1) dirp =
        some (dirp.filter fun dent => Visible dent.d_name) ∧
      ∀ (target : Target) (name : CString),
        strrchrSlash target.h5name = some name ∨
            strrchrSlash target.temp = some name →
          ∀ dent ∈ dirp.filter fun dent => Visible dent.d_name,
            dent.d_name ≠ name := by
  refine ⟨listing_eq_filter (Nat.lt_succ_self dirp.length), ?_⟩
  rintro target name generated dent member rfl
  have shown := (List.mem_filter.mp member).2
  exact not_visible_of_target target generated (of_decide_eq_true shown)

end DZFile.Listing
