import Mathlib.Data.List.Induction
import Mathlib.Logic.Function.Basic

/-!
# Trees of files

A tree says of every location, which is a list of names from the root, what is
there.  A path is walked component by component: `here` and `up` are the
entries `.` and `..`, a name has to be there, and every component needs a
directory to be looked up in.  `mkdir` is the system call, which fails where
the tree makes it fail and never for another reason.

A walk that ends at a missing name has a gap: where it stopped, the names that
are missing one inside the other, and the components behind them from the
first `here` or `up` on.  The rules say how the gap of a path grows with the
path, and what a walk finds once the names of its gap are directories.
-/

namespace DZFile.FileTree

/-- What is at a location. -/
inductive Kind where
  | directory
  | file
deriving DecidableEq

/-- Why a call fails: `ENOENT`, `ENOTDIR` or `EEXIST`. -/
inductive Failure where
  | missing
  | notDirectory
  | alreadyThere
deriving DecidableEq

/-- A component of a path. -/
inductive Component (α : Type) where
  | here
  | up
  | name (name : α)
deriving DecidableEq

variable {α : Type}

/-! ## Walks -/

/-- What is where. -/
abbrev Kinds (α : Type) := List α → Option Kind

/-- Look a component up in a directory. -/
def enter (kinds : Kinds α) (location : List α) :
    Component α → Except Failure (List α)
  | .here => .ok location
  | .up => .ok location.dropLast
  | .name name =>
      if kinds (location ++ [name]) = none then .error .missing
      else .ok (location ++ [name])

/-- Follow one component. -/
def step (kinds : Kinds α) (location : List α) (component : Component α) :
    Except Failure (List α) :=
  if kinds location = some .directory then enter kinds location component
  else .error .notDirectory

/-- Follow components from a location on. -/
def walk (kinds : Kinds α) :
    List α → List (Component α) → Except Failure (List α)
  | location, [] => .ok location
  | location, component :: rest =>
      (step kinds location component).bind fun next => walk kinds next rest

/-- What is at the end of a walk. -/
def lookup (kinds : Kinds α) (location : List α)
    (components : List (Component α)) : Except Failure Kind :=
  (walk kinds location components).bind fun reached =>
    (kinds reached).elim (.error .missing) .ok

/-- Where a walk stops for a missing name, and what is still ahead of it. -/
structure Gap (α : Type) where
  location : List α
  names : List α
  rest : List (Component α)
deriving DecidableEq

/-- The names a list of components starts with. -/
def leadingNames : List (Component α) → List α
  | .name name :: rest => name :: leadingNames rest
  | _ => []

/-- What follows the names it starts with. -/
def behindNames : List (Component α) → List (Component α)
  | .name _ :: rest => behindNames rest
  | rest => rest

/-- The gap of a walk. -/
def gap (kinds : Kinds α) : List α → List (Component α) → Option (Gap α)
  | _, [] => none
  | location, component :: rest =>
      match step kinds location component with
      | .ok next => gap kinds next rest
      | .error .missing =>
          some
            ⟨location, leadingNames (component :: rest),
              behindNames (component :: rest)⟩
      | .error _ => none

/-! ## Trees -/

/-- A tree; its root is a directory and so is everything with an entry. -/
structure Tree (α : Type) where
  kinds : Kinds α
  root : kinds [] = some .directory
  parent : ∀ location name,
    kinds (location ++ [name]) ≠ none → kinds location = some .directory

namespace Tree

/-- Below a location where nothing is there is nothing. -/
theorem absent_below
    (tree : Tree α) {location : List α} (absent : tree.kinds location = none)
    (more : List α) :
    tree.kinds (location ++ more) = none := by
  induction more using List.reverseRec with
  | nil => rwa [List.append_nil]
  | append_singleton before name induction =>
      by_contra present
      rw [← List.append_assoc] at present
      have isDir := tree.parent _ _ present
      rw [induction] at isDir
      cases isDir

variable [DecidableEq α]

/-- Put a directory into another one. -/
def add (tree : Tree α) (location : List α) (name : α)
    (isDir : tree.kinds location = some .directory) : Tree α where
  kinds :=
    Function.update tree.kinds (location ++ [name]) (some .directory)
  root := by
    rw [Function.update_of_ne (by simp)]
    exact tree.root
  parent := by
    intro other child present
    by_cases same : other = location ++ [name]
    · rw [same, Function.update_self]
    · rw [Function.update_of_ne same]
      by_cases new : other ++ [child] = location ++ [name]
      · rw [(List.append_inj' new rfl).1]
        exact isDir
      · rw [Function.update_of_ne new] at present
        exact tree.parent other child present

@[simp]
theorem kinds_add
    (tree : Tree α) (location : List α) (name : α)
    (isDir : tree.kinds location = some .directory) :
    (tree.add location name isDir).kinds =
      Function.update tree.kinds (location ++ [name]) (some .directory) :=
  rfl

/-- `mkdir`. -/
def mkdir (tree : Tree α) (location : List α)
    (components : List (Component α)) : Except Failure (Tree α) :=
  match components.getLast?, walk tree.kinds location components.dropLast with
  | none, _ => .error .alreadyThere
  | some _, .error failure => .error failure
  | some component, .ok parent =>
      if isDir : tree.kinds parent = some .directory then
        match component with
        | .name name =>
            if tree.kinds (parent ++ [name]) = none then
              .ok (tree.add parent name isDir)
            else .error .alreadyThere
        | _ => .error .alreadyThere
      else .error .notDirectory

end Tree

/-! ## Rules of walks -/

section Walks

variable {kinds more : Kinds α} {location : List α}

/-- A walk is a walk of its first part and then of the other. -/
theorem walk_append (before after : List (Component α)) :
    walk kinds location (before ++ after) =
      (walk kinds location before).bind fun reached =>
        walk kinds reached after := by
  induction before generalizing location with
  | nil => rfl
  | cons component rest induction =>
      rw [List.cons_append, walk, walk]
      cases step kinds location component with
      | error failure => rfl
      | ok next => exact induction

/-- One more component. -/
theorem walk_append_singleton
    (before : List (Component α)) (component : Component α) :
    walk kinds location (before ++ [component]) =
      (walk kinds location before).bind fun reached =>
        step kinds reached component := by
  rw [walk_append]
  cases walk kinds location before with
  | error failure => rfl
  | ok reached =>
      show (step kinds reached component).bind Except.ok =
        step kinds reached component
      cases step kinds reached component <;> rfl

theorem step_mono
    (kept : ∀ other kind, kinds other = some kind → more other = some kind)
    {component : Component α} {reached : List α}
    (stepped : step kinds location component = .ok reached) :
    step more location component = .ok reached := by
  unfold step at stepped ⊢
  split_ifs at stepped with isDir
  rw [if_pos (kept _ _ isDir)]
  cases component with
  | here => exact stepped
  | up => exact stepped
  | name name =>
      rw [enter] at stepped ⊢
      split_ifs at stepped with absent
      rcases Option.ne_none_iff_exists'.mp absent with ⟨kind, known⟩
      rw [kept _ _ known, if_neg (Option.some_ne_none kind)]
      exact stepped

/-- What a walk reaches it still reaches when entries have been added. -/
theorem walk_mono
    (kept : ∀ other kind, kinds other = some kind → more other = some kind)
    {components : List (Component α)} {reached : List α}
    (walked : walk kinds location components = .ok reached) :
    walk more location components = .ok reached := by
  induction components generalizing location with
  | nil => exact walked
  | cons component rest induction =>
      rw [walk] at walked ⊢
      cases stepped : step kinds location component with
      | error failure =>
          rw [stepped] at walked
          cases walked
      | ok next =>
          rw [stepped] at walked
          rw [step_mono kept stepped]
          exact induction walked

/-- A walk has a gap exactly if it fails for a missing name. -/
theorem gap_isSome_iff (components : List (Component α)) :
    (gap kinds location components).isSome ↔
      walk kinds location components = .error .missing := by
  induction components generalizing location with
  | nil => simp [gap, walk]
  | cons component rest induction =>
      rw [gap, walk]
      cases stepped : step kinds location component with
      | ok next => exact induction
      | error failure =>
          cases failure with
          | missing => exact iff_of_true rfl rfl
          | notDirectory =>
              exact iff_of_false (by simp) (by simp [Except.bind])
          | alreadyThere =>
              exact iff_of_false (by simp) (by simp [Except.bind])

/-- A step that fails for a missing name is one to a name in a directory. -/
theorem exists_name_of_missing
    {component : Component α}
    (missing : step kinds location component = .error .missing) :
    ∃ name, component = .name name ∧ kinds location = some .directory ∧
      kinds (location ++ [name]) = none := by
  unfold step at missing
  by_cases isDir : kinds location = some .directory
  swap
  · rw [if_neg isDir] at missing
    cases missing
  rw [if_pos isDir] at missing
  cases component with
  | here => cases missing
  | up => cases missing
  | name name =>
      rw [enter] at missing
      split_ifs at missing with absent
      exact ⟨name, rfl, isDir, absent⟩

/-- What a step reaches is there. -/
theorem present_of_step
    {tree : Tree α} {component : Component α} {reached : List α}
    (stepped : step tree.kinds location component = .ok reached) :
    tree.kinds reached ≠ none := by
  unfold step at stepped
  split_ifs at stepped with isDir
  have present : tree.kinds location ≠ none := by
    rw [isDir]
    exact Option.some_ne_none _
  cases component with
  | here =>
      cases stepped
      exact present
  | up =>
      cases stepped
      rcases List.eq_nil_or_concat location with rfl | ⟨front, last, rfl⟩
      · exact present
      · rw [List.concat_eq_append] at present ⊢
        rw [List.dropLast_concat, tree.parent front last present]
        exact Option.some_ne_none _
  | name name =>
      rw [enter] at stepped
      split_ifs at stepped with absent
      cases stepped
      exact absent

/-- What a walk reaches is there. -/
theorem present_of_walk
    {tree : Tree α} {components : List (Component α)} {reached : List α}
    (present : tree.kinds location ≠ none)
    (walked : walk tree.kinds location components = .ok reached) :
    tree.kinds reached ≠ none := by
  induction components generalizing location with
  | nil =>
      cases walked
      exact present
  | cons component rest induction =>
      rw [walk] at walked
      cases stepped : step tree.kinds location component with
      | error failure =>
          rw [stepped] at walked
          cases walked
      | ok next =>
          rw [stepped] at walked
          exact induction (present_of_step stepped) walked

/-- A lookup that starts at something fails only if its walk does. -/
theorem lookup_eq_error_iff
    {tree : Tree α} {components : List (Component α)}
    (present : tree.kinds location ≠ none) (failure : Failure) :
    lookup tree.kinds location components = .error failure ↔
      walk tree.kinds location components = .error failure := by
  rw [lookup]
  cases walked : walk tree.kinds location components with
  | error other => simp [Except.bind]
  | ok reached =>
      rcases Option.ne_none_iff_exists'.mp (present_of_walk present walked)
        with ⟨kind, known⟩
      simp [Except.bind, known]

/-- A walk never fails because something is there. -/
theorem walk_ne_alreadyThere (components : List (Component α)) :
    walk kinds location components ≠ .error .alreadyThere := by
  induction components generalizing location with
  | nil => simp [walk]
  | cons component rest induction =>
      rw [walk]
      cases stepped : step kinds location component with
      | ok next => exact induction
      | error failure =>
          intro failed
          cases failed
          unfold step at stepped
          by_cases isDir : kinds location = some .directory
          · rw [if_pos isDir] at stepped
            cases component with
            | here => cases stepped
            | up => cases stepped
            | name name =>
                rw [enter] at stepped
                split_ifs at stepped
                cases stepped
          · rw [if_neg isDir] at stepped
            cases stepped

end Walks

/-! ## Rules of gaps -/

section Gaps

variable {kinds : Kinds α} {location : List α}

/-- Components are the names they start with and what follows. -/
theorem names_append_behind (components : List (Component α)) :
    (leadingNames components).map .name ++ behindNames components =
      components := by
  induction components with
  | nil => rfl
  | cons component rest induction =>
      cases component with
      | here => rfl
      | up => rfl
      | name name =>
          rw [leadingNames, behindNames, List.map_cons, List.cons_append,
            induction]

/-- One more component is a name of the gap only if nothing else was behind. -/
theorem names_append_singleton
    (components : List (Component α)) (last : Component α) :
    leadingNames (components ++ [last]) =
        leadingNames components ++
          (if behindNames components = [] then leadingNames [last] else []) ∧
      behindNames (components ++ [last]) =
        if behindNames components = [] then behindNames [last]
        else behindNames components ++ [last] := by
  induction components with
  | nil => exact ⟨rfl, rfl⟩
  | cons component rest induction =>
      cases component with
      | here => exact ⟨rfl, rfl⟩
      | up => exact ⟨rfl, rfl⟩
      | name name =>
          simp only [List.cons_append, leadingNames, behindNames,
            induction.1, induction.2]
          exact ⟨rfl, rfl⟩

/-- The gap of a path with one more component. -/
def Gap.extend (hole : Gap α) (last : Component α) : Gap α :=
  ⟨hole.location,
    hole.names ++ (if hole.rest = [] then leadingNames [last] else []),
    if hole.rest = [] then behindNames [last] else hole.rest ++ [last]⟩

/-- A gap grows with the path. -/
theorem gap_append_singleton
    {components : List (Component α)} {hole : Gap α}
    (found : gap kinds location components = some hole)
    (last : Component α) :
    gap kinds location (components ++ [last]) = some (hole.extend last) := by
  induction components generalizing location with
  | nil => cases found
  | cons component rest induction =>
      rw [gap] at found
      rw [List.cons_append, gap]
      cases stepped : step kinds location component with
      | ok next =>
          rw [stepped] at found
          exact induction found
      | error failure =>
          rw [stepped] at found
          cases failure with
          | missing =>
              cases found
              have grown := names_append_singleton (component :: rest) last
              rw [List.cons_append] at grown
              simp only [grown.1, grown.2, Gap.extend]
          | notDirectory => cases found
          | alreadyThere => cases found

/-- The gap of a path whose last component alone is missing. -/
theorem gap_of_last
    {before : List (Component α)} {reached : List α} {last : Component α}
    (walked : walk kinds location before = .ok reached)
    (missing : step kinds reached last = .error .missing) :
    gap kinds location (before ++ [last]) =
      some ⟨reached, leadingNames [last], behindNames [last]⟩ := by
  induction before generalizing location with
  | nil =>
      cases walked
      rw [List.nil_append, gap, missing]
  | cons component rest induction =>
      rw [walk] at walked
      rw [List.cons_append, gap]
      cases stepped : step kinds location component with
      | ok next =>
          rw [stepped] at walked
          exact induction walked
      | error failure =>
          rw [stepped] at walked
          cases walked

/-- What a gap says about the walk. -/
theorem exists_of_gap
    {components : List (Component α)} {hole : Gap α}
    (found : gap kinds location components = some hole) :
    ∃ before first others,
      components = before ++ (hole.names.map .name ++ hole.rest) ∧
        walk kinds location before = .ok hole.location ∧
          kinds hole.location = some .directory ∧
            hole.names = first :: others ∧
              kinds (hole.location ++ [first]) = none := by
  induction components generalizing location with
  | nil => cases found
  | cons component rest induction =>
      rw [gap] at found
      cases stepped : step kinds location component with
      | ok next =>
          rw [stepped] at found
          rcases induction found with
            ⟨before, first, others, split, walked, facts⟩
          refine ⟨component :: before, first, others, ?_, ?_, facts⟩
          · rw [List.cons_append, ← split]
          · rw [walk, stepped]
            exact walked
      | error failure =>
          rw [stepped] at found
          cases failure with
          | missing =>
              cases found
              rcases exists_name_of_missing stepped with
                ⟨name, rfl, isDir, absent⟩
              exact
                ⟨[], name, leadingNames rest,
                  (names_append_behind (.name name :: rest)).symm, rfl,
                  isDir, rfl, absent⟩
          | notDirectory => cases found
          | alreadyThere => cases found

end Gaps

/-! ## Filling a gap -/

/-- The locations of names one inside the other. -/
def chain (location : List α) : List α → List (List α)
  | [] => []
  | name :: names =>
      (location ++ [name]) :: chain (location ++ [name]) names

theorem chain_append (location names more : List α) :
    chain location (names ++ more) =
      chain location names ++ chain (location ++ names) more := by
  induction names generalizing location with
  | nil => simp [chain]
  | cons name names induction =>
      rw [List.cons_append, chain, chain, induction]
      simp

/-- A location of the chain is where some of its names end. -/
theorem exists_prefix_of_mem_chain
    {location names place : List α} (member : place ∈ chain location names) :
    ∃ front back, names = front ++ back ∧ place = location ++ front ∧
      front ≠ [] := by
  induction names generalizing location with
  | nil => cases member
  | cons name names induction =>
      rw [chain, List.mem_cons] at member
      rcases member with same | later
      · exact ⟨[name], names, rfl, same, by simp⟩
      · rcases induction later with ⟨front, back, split, same, _⟩
        exact
          ⟨name :: front, back, by rw [split]; rfl, by rw [same]; simp,
            by simp⟩

/-- A location of the chain lies under its first name. -/
theorem exists_of_mem_chain
    {location names place : List α} {first : α}
    (member : place ∈ chain location (first :: names)) :
    ∃ more, place = location ++ [first] ++ more := by
  rcases exists_prefix_of_mem_chain member with
    ⟨front, back, split, rfl, nonempty⟩
  rcases List.exists_cons_of_ne_nil nonempty with ⟨head, rest, rfl⟩
  rw [List.cons_append, List.cons.injEq] at split
  exact ⟨rest, by rw [split.1]; simp⟩

/-- A walk along a chain of directories. -/
theorem walk_chain
    {kinds : Kinds α} {location names : List α}
    (isDir : kinds location = some .directory)
    (made : ∀ place ∈ chain location names, kinds place = some .directory) :
    walk kinds location (names.map .name) = .ok (location ++ names) ∧
      kinds (location ++ names) = some .directory := by
  induction names generalizing location with
  | nil =>
      rw [List.append_nil]
      exact ⟨rfl, isDir⟩
  | cons name names induction =>
      have here := made _ List.mem_cons_self
      rcases induction here fun place member =>
          made place (List.mem_cons_of_mem _ member) with
        ⟨walked, reached⟩
      rw [List.append_assoc] at walked reached
      refine ⟨?_, reached⟩
      rw [List.map_cons, walk, step, if_pos isDir, enter,
        if_neg (by rw [here]; exact Option.some_ne_none _)]
      exact walked

/-- The places of a chain are no further down than its end. -/
theorem length_le_of_mem_chain
    {location names place : List α} (member : place ∈ chain location names) :
    place.length ≤ location.length + names.length := by
  rcases exists_prefix_of_mem_chain member with ⟨front, back, rfl, rfl, _⟩
  simp only [List.length_append]
  omega

section Fill

variable [DecidableEq α]

/-- The tree with directories at the given places. -/
def withDirectories (kinds : Kinds α) (places : List (List α)) : Kinds α :=
  fun location =>
    if location ∈ places then some .directory else kinds location

/-- The tree with the names of a gap made directories. -/
def fill (kinds : Kinds α) (hole : Gap α) : Kinds α :=
  withDirectories kinds (chain hole.location hole.names)

@[simp]
theorem withDirectories_nil (kinds : Kinds α) :
    withDirectories kinds [] = kinds := by
  funext location
  simp [withDirectories]

theorem withDirectories_append_singleton
    (kinds : Kinds α) (places : List (List α)) (last : List α) :
    withDirectories kinds (places ++ [last]) =
      Function.update (withDirectories kinds places) last
        (some .directory) := by
  funext location
  by_cases same : location = last
  · rw [same, Function.update_self]
    simp [withDirectories]
  · rw [Function.update_of_ne same]
    simp [withDirectories, same]

/-- Nothing was at the places of a gap. -/
theorem fill_kept
    {tree : Tree α} {location : List α} {components : List (Component α)}
    {hole : Gap α}
    (found : gap tree.kinds location components = some hole)
    (other : List α) (kind : Kind) (present : tree.kinds other = some kind) :
    fill tree.kinds hole other = some kind := by
  rcases exists_of_gap found with
    ⟨before, first, others, _, _, _, names, absent⟩
  rw [fill, withDirectories, if_neg]
  · exact present
  · intro member
    rw [names] at member
    rcases exists_of_mem_chain member with ⟨more, rfl⟩
    rw [tree.absent_below absent more] at present
    cases present

/-- Below the end of a filled gap there is nothing yet. -/
theorem fill_absent
    {tree : Tree α} {location : List α} {components : List (Component α)}
    {hole : Gap α}
    (found : gap tree.kinds location components = some hole) (name : α) :
    fill tree.kinds hole (hole.location ++ hole.names ++ [name]) = none := by
  rcases exists_of_gap found with
    ⟨before, first, others, _, _, _, names, absent⟩
  rw [fill, withDirectories, if_neg]
  · have below := tree.absent_below absent (others ++ [name])
    rw [names]
    simpa using below
  · intro member
    have bound := length_le_of_mem_chain member
    simp only [List.length_append, List.length_cons, List.length_nil] at bound
    omega

/-- Once its gap is filled, a walk gets to what is behind. -/
theorem walk_fill
    {tree : Tree α} {location : List α} {components : List (Component α)}
    {hole : Gap α}
    (found : gap tree.kinds location components = some hole) :
    walk (fill tree.kinds hole) location components =
        walk (fill tree.kinds hole) (hole.location ++ hole.names) hole.rest ∧
      fill tree.kinds hole (hole.location ++ hole.names) =
        some .directory := by
  rcases exists_of_gap found with
    ⟨before, first, others, split, walked, isDir, names, absent⟩
  have kept := fill_kept found
  have made : ∀ place ∈ chain hole.location hole.names,
      fill tree.kinds hole place = some .directory := by
    intro place member
    rw [fill, withDirectories, if_pos member]
  rcases walk_chain (kept _ _ isDir) made with ⟨along, reached⟩
  refine ⟨?_, reached⟩
  rw [split, walk_append, walk_mono kept walked]
  show walk (fill tree.kinds hole) hole.location
      (hole.names.map .name ++ hole.rest) = _
  rw [walk_append, along]
  rfl

/-- The path leads through every place of its filled gap. -/
theorem walk_to_filled
    {tree : Tree α} {location : List α} {components : List (Component α)}
    {hole : Gap α}
    (found : gap tree.kinds location components = some hole)
    {place : List α} (new : place ∈ chain hole.location hole.names) :
    ∃ front, front <+: components ∧
      walk (fill tree.kinds hole) location front = .ok place := by
  rcases exists_of_gap found with
    ⟨before, first, others, split, walked, isDir, names, absent⟩
  rcases exists_prefix_of_mem_chain new with ⟨front, back, parted, rfl, _⟩
  have kept := fill_kept found
  have made : ∀ place ∈ chain hole.location front,
      fill tree.kinds hole place = some .directory := by
    intro place member
    rw [fill, withDirectories, if_pos]
    rw [parted, chain_append]
    exact List.mem_append_left _ member
  refine ⟨before ++ front.map .name, ?_, ?_⟩
  · refine ⟨back.map .name ++ hole.rest, ?_⟩
    rw [split, parted]
    simp
  · rw [walk_append, walk_mono kept walked]
    exact (walk_chain (kept _ _ isDir) made).1

end Fill

/-! ## Rules of `mkdir` -/

namespace Tree

variable [DecidableEq α]
variable {tree later : Tree α} {location : List α}
variable {before : List (Component α)}

theorem mkdir_of_walk_error
    {failure : Failure} (last : Component α)
    (failed : walk tree.kinds location before = .error failure) :
    tree.mkdir location (before ++ [last]) = .error failure := by
  rw [mkdir, List.getLast?_concat, List.dropLast_concat, failed]

/-- A name that is missing in a directory is made. -/
theorem mkdir_of_absent
    {parent : List α} {name : α}
    (walked : walk tree.kinds location before = .ok parent)
    (isDir : tree.kinds parent = some .directory)
    (absent : tree.kinds (parent ++ [name]) = none) :
    tree.mkdir location (before ++ [.name name]) =
      .ok (tree.add parent name isDir) := by
  rw [mkdir, List.getLast?_concat, List.dropLast_concat, walked]
  simp only [isDir, absent, dite_true, if_true]

/-- The entries `.` and `..` of a directory are there. -/
theorem mkdir_of_dot
    {parent : List α} {last : Component α}
    (walked : walk tree.kinds location before = .ok parent)
    (isDir : tree.kinds parent = some .directory)
    (dot : last = .here ∨ last = .up) :
    tree.mkdir location (before ++ [last]) = .error .alreadyThere := by
  rw [mkdir, List.getLast?_concat, List.dropLast_concat, walked]
  rcases dot with rfl | rfl <;> simp only [isDir, dite_true]

/-- What `mkdir` makes was not there, and nothing else changes. -/
theorem mkdir_kept
    {components : List (Component α)}
    (made : tree.mkdir location components = .ok later)
    {other : List α} {kind : Kind} (present : tree.kinds other = some kind) :
    later.kinds other = some kind := by
  rcases List.eq_nil_or_concat components with rfl | ⟨before, last, rfl⟩
  · cases made
  · rw [List.concat_eq_append] at made
    cases walked : walk tree.kinds location before with
    | error failure =>
        rw [mkdir_of_walk_error last walked] at made
        cases made
    | ok parent =>
        rw [mkdir, List.getLast?_concat, List.dropLast_concat, walked] at made
        dsimp only at made
        split_ifs at made with isDir
        cases last with
        | here => cases made
        | up => cases made
        | name name =>
            dsimp only at made
            split_ifs at made with absent
            cases made
            have different : other ≠ parent ++ [name] := by
              rintro rfl
              rw [absent] at present
              cases present
            rw [kinds_add, Function.update_of_ne different]
            exact present

end Tree

end DZFile.FileTree
