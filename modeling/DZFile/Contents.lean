import DZFile.Confinement
import DZFile.HiddenNames
import DZFile.Pread

/-!
# The store behind the files

What the library and its tools keep, seen from outside: every path has a
content or none, and a content is stored as it is or converted.  A store is
such an assignment; `Refines` says that a file system holds it.

The names the library makes up for itself are no paths of the store.  A
process confined to one path and its hidden names therefore changes the store
at that path only.
-/

namespace DZFile.Contents

open DZFile.ByteSeq
open DZFile.Names
open DZFile.Codec
open DZFile.Image
open DZFile.Kernel
open DZFile.Converter
open DZFile.HiddenNames
open DZFile.Reaching
open DZFile.Confinement
open DZFile.Pread

/-! ## Stores -/

/-- What is stored under a path. -/
inductive Entry where
  | directory
  /-- A file without an image. -/
  | plain (content : Bytes)
  /-- A content in a hidden image, and what the visible file holds. -/
  | converted (content placeholder : Bytes)

/-- The content the library reads under the path. -/
def Entry.content : Entry → Option Bytes
  | .directory => none
  | .plain content => some content
  | .converted content _ => some content

/-- The bytes of the visible file. -/
def Entry.visible : Entry → Option Bytes
  | .directory => none
  | .plain content => some content
  | .converted _ placeholder => some placeholder

/-- An assignment of entries to paths. -/
abbrev Store := CString → Option Entry

/-- Put an entry under a path. -/
def Store.set (store : Store) (path : CString) (entry : Option Entry) :
    Store :=
  Function.update store path entry

@[simp]
theorem Store.set_self
    (store : Store) (path : CString) (entry : Option Entry) :
    store.set path entry path = entry :=
  Function.update_self _ _ _

theorem Store.set_of_ne
    {path other : CString} (different : other ≠ path) (store : Store)
    (entry : Option Entry) :
    store.set path entry other = store other :=
  Function.update_of_ne different _ _

/-- The content a path reads back as. -/
def Store.content (store : Store) (path : CString) : Option Bytes :=
  (store path).bind Entry.content

/-! ## File systems -/

/-- A path that is not a name the library makes up. -/
structure Ordinary (path : CString) : Prop where
  notImage : ∀ target : Target, path ≠ target.h5name
  notTemp : ∀ target : Target, path ≠ target.temp

/-- A path the recogniser does not know is ordinary. -/
theorem ordinary_of_not_hidden
    {path : CString} (unknown : match_hiddenfile [] path = false) :
    Ordinary path where
  notImage target := (h5name_ne_of_not_hidden unknown target).symm
  notTemp target := by
    rintro rfl
    rw [match_hiddenfile_temp target []] at unknown
    cases unknown

/-- How a file system holds an entry. -/
inductive Represents
    (libs : Libs) (fs : FileSystem) (target : Target) :
    Option Entry → Prop where
  | absent
      (visible : fs.lookup target.path = none)
      (image : fs.lookup target.h5name = none) :
      Represents libs fs target none
  | directory
      (visible : fs.lookup target.path = some .directory)
      (image : fs.lookup target.h5name = none) :
      Represents libs fs target (some .directory)
  | plain (content : Bytes)
      (visible : fs.lookup target.path = some (.file content))
      (image : fs.lookup target.h5name = none) :
      Represents libs fs target (some (.plain content))
  | converted (content placeholder : Bytes) (image : H5Image)
      (visible : fs.lookup target.path = some (.file placeholder))
      (stored : fs.lookup target.h5name = some (.image image))
      (closed : image.closed = true)
      (small : content.length < 2147483648)
      (wellFormed : ∀ dstlen, WellFormed libs image dstlen content) :
      Represents libs fs target (some (.converted content placeholder))

/-- A file system that holds the store. -/
structure Refines (libs : Libs) (fs : FileSystem) (store : Store) : Prop where
  oneName : OneName fs
  represents :
    ∀ target : Target, Ordinary target.path →
      Represents libs fs target (store target.path)

section Frames

variable
    {libs : Libs} {fs fs' : FileSystem} {store : Store} {target : Target}
    {entry : Option Entry}

/-- The names of a path: the visible one and the two hidden ones. -/
def namesOf (target : Target) (name : CString) : Prop :=
  name = target.path ∨ name = target.h5name ∨ name = target.temp

/-- The visible and the image's name decide what is stored. -/
theorem Represents.congr
    (represents : Represents libs fs target entry)
    (visible : fs'.lookup target.path = fs.lookup target.path)
    (image : fs'.lookup target.h5name = fs.lookup target.h5name) :
    Represents libs fs' target entry := by
  cases represents with
  | absent missing noImage =>
      exact .absent (visible.trans missing) (image.trans noImage)
  | directory found noImage =>
      exact .directory (visible.trans found) (image.trans noImage)
  | plain content found noImage =>
      exact .plain content (visible.trans found) (image.trans noImage)
  | converted content placeholder stored found held closed small wellFormed =>
      exact
        .converted content placeholder stored (visible.trans found)
          (image.trans held) closed small wellFormed

/--
A complete copy of the content that a crash does not take away: a visible
file, or an image that has been closed.
-/
inductive Survives
    (libs : Libs) (fs : FileSystem) (target : Target) (content : Bytes) :
    Prop where
  | plain (visible : fs.lookup target.path = some (.file content))
  | converted (image : H5Image)
      (stored : fs.lookup target.h5name = some (.image image))
      (closed : image.closed = true)
      (wellFormed : ∀ dstlen, WellFormed libs image dstlen content)

theorem Survives.congr
    {content : Bytes} (survives : Survives libs fs target content)
    (visible : fs'.lookup target.path = fs.lookup target.path)
    (image : fs'.lookup target.h5name = fs.lookup target.h5name) :
    Survives libs fs' target content := by
  cases survives with
  | plain found => exact .plain (visible.trans found)
  | converted stored held closed wellFormed =>
      exact .converted stored (image.trans held) closed wellFormed

/-- What is stored survives. -/
theorem Represents.survives
    (represents : Represents libs fs target entry) {content : Bytes}
    (same : entry.bind Entry.content = some content) :
    Survives libs fs target content := by
  cases represents with
  | absent missing noImage => cases same
  | directory found noImage => cases same
  | plain now found noImage =>
      cases same
      exact .plain found
  | converted now placeholder image found held closed small wellFormed =>
      cases same
      exact .converted image held closed wellFormed

/-- The names of a path are none of another ordinary path's. -/
theorem not_namesOf
    {other : Target} (ordinary : Ordinary target.path)
    (ordinary' : Ordinary other.path) (different : other.path ≠ target.path) :
    ¬ namesOf target other.path ∧ ¬ namesOf target other.h5name := by
  constructor
  · rintro (same | same | same)
    · exact different same
    · exact ordinary'.notImage target same
    · exact ordinary'.notTemp target same
  · rintro (same | same | same)
    · exact ordinary.notImage other same.symm
    · exact different (h5name_injective same)
    · exact h5name_ne_temp other target same

/-- Two targets of one path have one image. -/
theorem h5name_eq_of_path
    {p q : Target} (same : p.path = q.path) : p.h5name = q.h5name := by
  have built := p.built
  rw [same, q.built] at built
  exact (Option.some.inj built).symm

/-- A change of the names of one path changes the store at that path only. -/
theorem Refines.set
    (refines : Refines libs fs store) (ordinary : Ordinary target.path)
    (oneName : OneName fs')
    (kept : ∀ name, ¬ namesOf target name → fs'.lookup name = fs.lookup name)
    (represents : Represents libs fs' target entry) :
    Refines libs fs' (store.set target.path entry) where
  oneName := oneName
  represents other ordinary' := by
    by_cases same : other.path = target.path
    · have image := h5name_eq_of_path same
      rcases other with ⟨path, h5name, built⟩
      cases same
      cases image
      rw [Store.set_self]
      exact represents.congr rfl rfl
    · rcases not_namesOf ordinary ordinary' same with ⟨visible, image⟩
      rw [Store.set_of_ne same]
      exact
        (refines.represents other ordinary').congr (kept _ visible)
          (kept _ image)

/-- A confined process changes the store at its path only. -/
theorem Refines.confined
    (refines : Refines libs fs store) (ordinary : Ordinary target.path)
    {names : CString → Prop} (within : ∀ name, names name → namesOf target name)
    {sys : Sys} (confined : Confined names fs sys)
    (represents : Represents libs sys.fs target entry) :
    Refines libs sys.fs (store.set target.path entry) := by
  apply refines.set ordinary confined.oneName _ represents
  intro name other
  exact confined.kept name fun named => other (within name named)

/-- An inode read off a lookup. -/
theorem entry_of_lookup
    {path : CString} {node : Node} (found : fs.lookup path = some node) :
    ∃ ino, fs.entry path = some ino ∧ fs.node ino = node :=
  Option.map_eq_some_iff.mp found

theorem lookup_of_entry
    {path : CString} {ino : Ino} {node : Node}
    (found : fs.entry path = some ino) (stored : fs.node ino = node) :
    fs.lookup path = some node :=
  Option.map_eq_some_iff.mpr ⟨ino, found, stored⟩

theorem lookup_eq_none_iff {path : CString} :
    fs.lookup path = none ↔ fs.entry path = none :=
  Option.map_eq_none_iff

/-- A path that stood for nothing is given a directory or a file. -/
theorem Refines.link
    (refines : Refines libs fs store) (ordinary : Ordinary target.path)
    (absent : store target.path = none) {node : Node} {added : Entry}
    (holds :
      (node = .directory ∧ added = .directory) ∨
        ∃ content, node = .file content ∧ added = .plain content) :
    Refines libs (fs.link target.path node)
      (store.set target.path (some added)) := by
  have named : namesOf target target.path := Or.inl rfl
  have confined :
      Confined (namesOf target) fs
        ⟨fs.link target.path node, .empty, .empty⟩ :=
    (confined_initial refines.oneName .empty).after
      (refines.oneName.step (.link target.path rfl))
      (.link target.path node named) (opens_of_same rfl rfl)
  apply refines.confined ordinary (fun _ named => named) confined
  have represents := refines.represents target ordinary
  rw [absent] at represents
  cases represents with
  | absent missing noImage =>
      have visible :
          (fs.link target.path node).lookup target.path = some node := by
        simp [FileSystem.lookup]
      have image : (fs.link target.path node).lookup target.h5name = none := by
        rw [lookup_eq_none_iff, FileSystem.entry_link,
          Function.update_of_ne target.h5name_ne_path]
        exact lookup_eq_none_iff.mp noImage
      rcases holds with ⟨rfl, rfl⟩ | ⟨content, rfl, rfl⟩
      · exact .directory visible image
      · exact .plain content visible image

/-- An empty file system holds an empty store. -/
theorem refines_initial (libs : Libs) :
    Refines libs Sys.initial.fs fun _ => none where
  oneName := by
    intro path path' ino named
    cases named
  represents _ _ := .absent rfl rfl

end Frames

end DZFile.Contents
