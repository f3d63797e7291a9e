import DZFile.HiddenNames
import DZFile.Protection
import DZFile.Reaching
import DZFile.Staging

/-!
# Calls on other paths

What the five functions that change names can do to the hidden image and the
temporary file of a path they are not called on.  A call reaches its own path
and, when it is `dzfile_unlink`, the image of that path; the hidden names of
another path are neither, unless the call's own path is one of them.

The filters keep that case out for `dzfile_creat`, which refuses all hidden
names, and in part for `dzfile_open`, which refuses the names of images.  The
other three functions have no such filter.

Two texts may stand for one file: `//f` and `/./f` for `/f`.  A path that is
normalised is the only normalised one for its file, and so are the hidden
names that are built from it; the paths of this module are normalised.
-/

namespace DZFile.Isolation

open DZFile.Interaction
open DZFile.Names
open DZFile.Codec
open DZFile.Metadata
open DZFile.Kernel
open DZFile.Api
open DZFile.Opening
open DZFile.Converter
open DZFile.HiddenNames
open DZFile.Protection
open DZFile.Reaching
open DZFile.Staging

/-! ## Normalised paths -/

/-- A component that leads to an entry of the directory it is looked up in. -/
structure Proper (name : CString) : Prop where
  nonempty : name ≠ []
  noSlash : '/' ∉ name
  notDot : name ≠ ['.']
  notDotDot : name ≠ ['.', '.']

/-- The absolute path with these components. -/
def spell (names : List CString) : CString :=
  (names.map fun name => '/' :: name).flatten

/-- An absolute path without empty components, `.` and `..`. -/
def Normalised (path : CString) : Prop :=
  ∃ names, (∀ name ∈ names, Proper name) ∧ path = spell names

/-- The place a component leads to; no entry is a symbolic link. -/
def follow (place : List CString) (name : CString) : List CString :=
  if name = ['.'] then place
  else if name = ['.', '.'] then place.dropLast
  else place ++ [name]

/-- The place an absolute path stands for. -/
def resolve (path : CString) : List CString :=
  (components path).foldl follow []

theorem spell_append_singleton (names : List CString) (name : CString) :
    spell (names ++ [name]) = spell names ++ '/' :: name := by
  simp [spell]

theorem components_spell
    {names : List CString} (proper : ∀ name ∈ names, Proper name) :
    components (spell names) = names := by
  induction names using List.reverseRecOn with
  | nil => exact components_nil
  | append_singleton names name induction =>
      rcases List.forall_mem_append.mp proper with ⟨earlier, last⟩
      have here := last name List.mem_cons_self
      rw [spell_append_singleton, components_append_slash, induction earlier,
        components_of_not_mem here.nonempty here.noSlash]

/-- A normalised path stands for its components. -/
theorem resolve_spell
    {names : List CString} (proper : ∀ name ∈ names, Proper name) :
    resolve (spell names) = names := by
  rw [resolve, components_spell proper]
  induction names using List.reverseRecOn with
  | nil => rfl
  | append_singleton names name induction =>
      rcases List.forall_mem_append.mp proper with ⟨earlier, last⟩
      have here := last name List.mem_cons_self
      rw [List.foldl_append, induction earlier, List.foldl_cons,
        List.foldl_nil, follow, if_neg here.notDot, if_neg here.notDotDot]

/-- Normalised paths for one place are equal. -/
theorem Normalised.eq_of_resolve
    {path other : CString} (normalised : Normalised path)
    (normalised' : Normalised other) (same : resolve path = resolve other) :
    path = other := by
  rcases normalised with ⟨names, proper, rfl⟩
  rcases normalised' with ⟨names', proper', rfl⟩
  rw [resolve_spell proper, resolve_spell proper'] at same
  rw [same]

/-- The last component can be another one. -/
theorem Normalised.replace
    {dir base other : CString} (noSlash : '/' ∉ base) (proper : Proper other)
    (normalised : Normalised (dir ++ '/' :: base)) :
    Normalised (dir ++ '/' :: other) := by
  rcases normalised with ⟨names, all, same⟩
  rcases List.eq_nil_or_concat names with rfl | ⟨earlier, last, rfl⟩
  · simp [spell] at same
  · rw [List.concat_eq_append] at all same
    rcases List.forall_mem_append.mp all with ⟨before, here⟩
    rw [spell_append_singleton] at same
    rcases
      append_slash_injective noSlash
        (here last List.mem_cons_self).noSlash same with
      ⟨rfl, _⟩
    refine ⟨earlier ++ [other], ?_, (spell_append_singleton _ _).symm⟩
    intro name member
    rcases List.mem_append.mp member with old | new
    · exact before name old
    · rw [List.mem_singleton.mp new]
      exact proper

/-- The hidden names of a normalised path are normalised. -/
theorem normalised_hidden
    {p : Target} (normalised : Normalised p.path) :
    Normalised p.h5name ∧ Normalised p.temp := by
  rcases exists_parts p with ⟨dir, base, noSlash, path, image, temp⟩
  rcases slash_not_mem_hidden noSlash with ⟨noSlash', noSlash''⟩
  rw [path] at normalised
  have ends : dotDZF.length = 4 := rfl
  rw [image, temp]
  constructor
  · refine normalised.replace noSlash ⟨List.cons_ne_nil _ _, noSlash', ?_, ?_⟩
    all_goals
      intro same
      have lengths := congrArg List.length same
      simp only [List.length_cons, List.length_append, ends, List.length_nil]
        at lengths
      omega
  · refine
      normalised.replace noSlash ⟨List.cons_ne_nil _ _, noSlash'', ?_, ?_⟩
    all_goals
      intro same
      have lengths := congrArg List.length same
      simp only [List.length_cons, List.length_append, ends, List.length_nil]
        at lengths
      omega

/-! ## The property -/

/--
In every reachable file system, and however the call on `q` is executed, the
image name and the temporary name of `p` refer to what they did.
-/
def Isolated
    (platform : Platform) (p : Target) (q : CString) (call : PathCall) :
    Prop :=
  ∀ fs, Reachable platform fs → ∀ db proc choices ret later,
    (call.program q).run (kernel platform) ⟨fs, db, proc⟩ choices =
        some (ret, later) →
      later.fs.lookup p.h5name = fs.lookup p.h5name ∧
        later.fs.lookup p.temp = fs.lookup p.temp

/-- What keeps a call off the hidden names of `p` when it is made on one. -/
def Refuses (p : Target) (q : CString) : PathCall → Prop
  | .dzfile_creat => True
  | .dzfile_open flags =>
      q = p.h5name ∨ match_sysdir q = true ∨
        (hasCreat flags = false ∧ hasTrunc flags = false)
  | .dzfile_unlink => match_sysdir q = true
  | .dzfile_mkdir => match_sysdir q = true
  | .dzfile_truncate length => length < 0

/-- The path stands for no hidden name of `p`, or the call is kept off it. -/
def Spares (p : Target) (q : CString) (call : PathCall) : Prop :=
  (resolve q ≠ resolve p.h5name ∧ resolve q ≠ resolve p.temp) ∨
    Refuses p q call

/-- Of normalised paths the texts can be compared. -/
theorem spares_iff
    {p : Target} {q : CString} (normalised : Normalised p.path)
    (normalised' : Normalised q) (call : PathCall) :
    Spares p q call ↔ (q ≠ p.h5name ∧ q ≠ p.temp) ∨ Refuses p q call := by
  rcases normalised_hidden normalised with ⟨image, temp⟩
  have places :
      ∀ name, Normalised name →
        (resolve q = resolve name ↔ q = name) := fun name normal =>
    ⟨normalised'.eq_of_resolve normal, congrArg resolve⟩
  rw [Spares, ne_eq, ne_eq, places _ image, places _ temp]

/-! ## What a call reaches -/

section Reach

variable {names : CString → Prop} {path : CString}

theorem touches_of_looks {op : Op} (quiet : looks op) :
    Touches names op := by
  cases op <;> first
    | exact quiet.elim
    | trivial

/-- A call of `dzfile_open` or `dzfile_creat` that may create its path. -/
theorem touches_of_opens
    {flags : Nat} {op : Op}
    (reached :
      names path ∨ (hasCreat flags = false ∧ hasTrunc flags = false))
    (opening : opens path flags op) :
    Touches names op := by
  cases op <;> first
    | exact opening.elim
    | trivial
    | skip
  rcases opening with ⟨rfl, rfl⟩
  exact reached

theorem touches_findhiddenFile (path : CString) :
    (findhiddenFile path).AllCalls (Touches names) :=
  (looks_findhiddenFile path).mono fun _ => touches_of_looks

theorem touches_space_update (field : Field) (num : Int) (flag : Flag) :
    (space_update field num flag).AllCalls (Touches names) :=
  (looks_space_update field num flag).mono fun _ => touches_of_looks

theorem touches_dzfile_open
    {flags : Nat}
    (reached :
      names path ∨ (hasCreat flags = false ∧ hasTrunc flags = false)) :
    (dzfile_open path flags).AllCalls (Touches names) :=
  (opens_dzfile_open path flags).mono fun _ => touches_of_opens reached

theorem touches_dzfile_creat (reached : names path) :
    (dzfile_creat path).AllCalls (Touches names) :=
  (opens_dzfile_creat path).mono fun _ => touches_of_opens (Or.inl reached)

theorem touches_unlinkVisible (reached : names path) :
    (unlinkVisible path).AllCalls (Touches names) := by
  refine ⟨reached, ?_⟩
  rintro (errno | done)
  · trivial
  · refine ⟨trivial, ?_⟩
    rintro (errno | stbuf)
    · trivial
    · exact
        (touches_space_update .writtenbytes stbuf.size .SUB_NUM).bind
          fun _ => trivial

theorem touches_dzfile_unlink
    (reached : names path)
    (hidden : ∀ h5name, buildHiddenFile path = some h5name → names h5name) :
    (dzfile_unlink path).AllCalls (Touches names) := by
  have visible := touches_unlinkVisible reached
  unfold dzfile_unlink
  split
  · trivial
  · refine (touches_findhiddenFile path).bind fun rc => ?_
    split
    · unfold unlinkImage
      cases built : buildHiddenFile path with
      | none => trivial
      | some h5name =>
          refine ⟨trivial, ?_⟩
          rintro (errno | stbuf)
          · trivial
          · refine ⟨hidden h5name built, ?_⟩
            rintro (errno | done)
            · trivial
            · exact
                (touches_space_update .diskbytes stbuf.size .SUB_NUM).bind
                  fun _ => visible
    · exact visible

theorem touches_dzfile_truncate
    {length : Int} (reached : names path ∨ length < 0) :
    (dzfile_truncate path length).AllCalls (Touches names) := by
  refine (touches_findhiddenFile path).bind fun isexist => ?_
  split
  · trivial
  · exact ⟨reached, fun _ => trivial⟩

theorem touches_dzfile_mkdir (reached : names path) :
    (dzfile_mkdir path).AllCalls (Touches names) := by
  unfold dzfile_mkdir
  split
  · trivial
  · exact ⟨reached, fun _ => trivial⟩

/-- Every call reaches its path and the image of its path at most. -/
theorem touches_program (path : CString) (call : PathCall) :
    (call.program path).AllCalls
      (Touches fun name => name = path ∨ buildHiddenFile path = some name) := by
  cases call with
  | dzfile_creat => exact touches_dzfile_creat (Or.inl rfl)
  | dzfile_open flags => exact touches_dzfile_open (Or.inl (Or.inl rfl))
  | dzfile_unlink =>
      exact touches_dzfile_unlink (Or.inl rfl) fun _ built => Or.inr built
  | dzfile_mkdir => exact touches_dzfile_mkdir (Or.inl rfl)
  | dzfile_truncate length =>
      exact touches_dzfile_truncate (Or.inl (Or.inl rfl))

end Reach

/-! ## What the filters keep out -/

/-- The name of a temporary file passes the filter of `dzfile_open`. -/
theorem illegalName_temp (p : Target) (base : CString) :
    illegalName p.temp base = false := by
  have ending : dotDZF.isSuffixOf p.temp = false := by
    rw [Bool.eq_false_iff, Ne, List.isSuffixOf_iff_suffix]
    rintro ⟨rest, same⟩
    have lasts := congrArg List.getLast? same
    simp [Target.temp, tempName, dotDZF, dotTmp, List.getLast?_append]
      at lasts
  simp [illegalName, ending]

/-- `dzfile_creat` returns at once from a hidden name. -/
theorem dzfile_creat_of_hidden
    {path : CString} (slash : '/' ∈ path)
    (hidden : match_hiddenfile [] path = true) :
    dzfile_creat path = .ret (-1) := by
  unfold dzfile_creat
  cases found : strrchrSlash path with
  | none => exact ((strrchrSlash_eq_none_iff path).mp found slash).elim
  | some bname =>
      simp only [hidden, Bool.or_true, if_true]
      split <;> rfl

/-- `dzfile_open` returns at once from the name of an image. -/
theorem dzfile_open_of_image (p : Target) (flags : Nat) :
    dzfile_open p.h5name flags = .ret (-1) := by
  rcases illegalName_buildHiddenFile p.built with ⟨base, found, illegal⟩
  unfold dzfile_open
  simp only [found, illegal, if_true]
  split <;> rfl

theorem slash_mem_h5name (p : Target) : '/' ∈ p.h5name := by
  rcases exists_parts p with ⟨dir, base, _, _, image, _⟩
  simp [image]

theorem slash_mem_temp (p : Target) : '/' ∈ p.temp := by
  rcases exists_parts p with ⟨dir, base, _, _, _, temp⟩
  simp [temp]

/-- A call that is kept off its path changes nothing. -/
theorem touches_of_refuses
    {p : Target} {q : CString} {call : PathCall}
    (hidden : q = p.h5name ∨ q = p.temp) (refuses : Refuses p q call) :
    (call.program q).AllCalls (Touches fun _ => False) := by
  cases call with
  | dzfile_creat =>
      have ends : dzfile_creat q = .ret (-1) := by
        rcases hidden with rfl | rfl
        · exact
            dzfile_creat_of_hidden (slash_mem_h5name p)
              (match_hiddenfile_h5name p [])
        · exact
            dzfile_creat_of_hidden (slash_mem_temp p)
              (match_hiddenfile_temp p [])
      rw [PathCall.program, ends]
      trivial
  | dzfile_open flags =>
      rcases refuses with rfl | sysdir | harmless
      · rw [PathCall.program, dzfile_open_of_image p flags]
        trivial
      · simp only [PathCall.program, dzfile_open, sysdir, if_true]
        trivial
      · exact touches_dzfile_open (Or.inr harmless)
  | dzfile_unlink =>
      change match_sysdir q = true at refuses
      simp only [PathCall.program, dzfile_unlink, refuses, if_true]
      trivial
  | dzfile_mkdir =>
      change match_sysdir q = true at refuses
      simp only [PathCall.program, dzfile_mkdir, refuses, if_true]
      trivial
  | dzfile_truncate length => exact touches_dzfile_truncate (Or.inr refuses)

/-- A call that spares the hidden names of `p` isolates them. -/
theorem isolated_of_spares
    {platform : Platform} {p : Target} {q : CString} {call : PathCall}
    (different : q ≠ p.path)
    (spares : (q ≠ p.h5name ∧ q ≠ p.temp) ∨ Refuses p q call) :
    Isolated platform p q call := by
  intro fs reachable db proc choices ret later ran
  have oneName := oneName_of_reachable reachable
  by_cases hidden : q = p.h5name ∨ q = p.temp
  · have refuses : Refuses p q call := by
      rcases spares with other | refuses
      · exact (hidden.elim other.1 other.2).elim
      · exact refuses
    have touches := touches_of_refuses hidden refuses
    exact
      ⟨lookup_of_run touches oneName ran id,
        lookup_of_run touches oneName ran id⟩
  · rw [not_or] at hidden
    have touches := touches_program q call
    refine
      ⟨lookup_of_run touches oneName ran ?_,
        lookup_of_run touches oneName ran ?_⟩
    · rintro (same | built)
      · exact hidden.1 same.symm
      · exact different (h5name_injective (p := ⟨q, _, built⟩) (q := p) rfl)
    · rintro (same | built)
      · exact hidden.2 same.symm
      · exact h5name_ne_temp ⟨q, _, built⟩ p rfl

/-! ## What they let through -/

section Exposed

variable {platform : Platform} {p : Target} {q : CString}

/-- A path with a slash has a last component and an image name. -/
theorem exists_base (slash : '/' ∈ q) :
    ∃ base h5name,
      strrchrSlash q = some base ∧ buildHiddenFile q = some h5name := by
  cases found : strrchrSlash q with
  | none => exact ((strrchrSlash_eq_none_iff q).mp found slash).elim
  | some base => exact ⟨base, _, rfl, by rw [buildHiddenFile, found]; rfl⟩

/-- `dzfile_open` on a plain path gets as far as the call of `open`. -/
theorem run_dzfile_open_plain
    {sys middle later : Sys} {flags : Nat} {base h5name : CString}
    {choices : List Choice} {ret : Int}
    (notSysdir : match_sysdir q = false)
    (found : strrchrSlash q = some base) (legal : illegalName q base = false)
    (built : buildHiddenFile q = some h5name)
    (noImage : sys.fs.entry h5name = none)
    (same : middle = sys)
    (ran :
      (openPlain q flags).run (kernel platform) middle choices =
        some (ret, later)) :
    (dzfile_open q flags).run (kernel platform) sys (.ok 0 :: choices) =
      some (ret, later) := by
  subst same
  have looked :=
    @run_findhiddenFile_absent platform _ _ _ built noImage
  simp only [dzfile_open, notSysdir, found, legal, Bool.false_eq_true,
    if_false]
  exact
    Prog.run_bind_eq_some.mpr ⟨[.ok 0], choices, 0, middle, rfl, looked, ran⟩

/-- A call of the wrong kind on a hidden name changes it somewhere. -/
def Exposed (platform : Platform) (q : CString) (call : PathCall) : Prop :=
  ∃ fs, Reachable platform fs ∧ ∃ choices ret later,
    (call.program q).run (kernel platform) ⟨fs, .empty, .empty⟩ choices =
        some (ret, later) ∧
      later.fs.lookup q ≠ fs.lookup q

theorem exposed_dzfile_open
    {flags : Nat} (notSysdir : match_sysdir p.temp = false)
    (harmful : hasCreat flags = true ∨ hasTrunc flags = true) :
    Exposed platform p.temp (.dzfile_open flags) := by
  rcases exists_base (slash_mem_temp p) with ⟨base, h5name, found, built⟩
  have legal := illegalName_temp p base
  have notTemp : h5name ≠ p.temp := buildHiddenFile_ne built
  by_cases creates : hasCreat flags = true
  · refine
      ⟨Sys.initial.fs, reachable_initial platform,
        .ok 0 :: ([.ok 0] ++ ([.ok 0, .ok 0] ++ [.ok 0])), 0, ?_, ?_, ?_⟩
    · refine
        { fs := Sys.initial.fs.link p.temp (.file [])
          db :=
            (Stmt.updateSpace .filenum .ADD_NUM (printUnsigned 1)).exec
              ((Stmt.insertFilemeta p.temp).exec .empty)
          proc := Process.empty.setFd 0 (some ⟨0, 0, flags⟩) }
    · refine
        run_dzfile_open_plain notSysdir found legal built rfl rfl ?_
      refine
        Prog.run_call_eq_some.mpr
          ⟨.ok 0, _, .error .ENOENT, _, rfl, rfl, ?_⟩
      show
        (fmt_entry_insert p.temp >>= fun _ => openVisible p.temp flags).run
            _ _ _ =
          _
      refine
        Prog.run_bind_eq_some.mpr
          ⟨[.ok 0, .ok 0], [.ok 0], 0, _, rfl, rfl, ?_⟩
      refine
        Prog.run_call_eq_some.mpr ⟨.ok 0, [], .ok 0, _, rfl, ?_, rfl⟩
      simp [kernel, Sys.openFile, Sys.initial, Process.empty, creates,
        Sys.install]
    · simp [FileSystem.lookup, Sys.initial]
  · have truncates := harmful.resolve_left creates
    rcases exists_reachable_file platform p.temp [7] with
      ⟨fs, reachable, present, alone⟩
    rcases Option.map_eq_some_iff.mp present with ⟨ino, named, node⟩
    refine
      ⟨fs, reachable, [.ok 0, .ok 0, .ok 0], 0,
        { fs := fs.put ino (.file [])
          db := .empty
          proc := Process.empty.setFd 0 (some ⟨ino, 0, flags⟩) }, ?_, ?_⟩
    · refine
        run_dzfile_open_plain notSysdir found legal built
          (alone _ notTemp) rfl ?_
      refine
        Prog.run_call_eq_some.mpr
          ⟨.ok 0, [.ok 0], .ok ⟨false, 1⟩, ⟨fs, .empty, .empty⟩, rfl, ?_, ?_⟩
      · simp [kernel, Sys.stat, FileSystem.lookup, named, node, Node.bytes]
      · refine
          Prog.run_call_eq_some.mpr ⟨.ok 0, [], .ok 0, _, rfl, ?_, rfl⟩
        have noCreat : hasCreat flags = false := by simpa using creates
        simp [kernel, Sys.openFile, Process.empty, named, node, noCreat,
          truncates, Sys.install]
    · simp [FileSystem.lookup, named, node]

theorem exposed_dzfile_unlink
    (slash : '/' ∈ q) (notSysdir : match_sysdir q = false) :
    Exposed platform q .dzfile_unlink := by
  rcases exists_base slash with ⟨base, h5name, _, built⟩
  rcases exists_reachable_file platform q [7] with
    ⟨fs, reachable, present, alone⟩
  have looked :=
    @run_findhiddenFile_absent platform ⟨fs, .empty, .empty⟩ _ _ built
      (alone _ (buildHiddenFile_ne built))
  refine
    ⟨fs, reachable, [.ok 0] ++ [.ok 0, .ok 0], -1,
      ⟨fs.remove q, .empty, .empty⟩, ?_, ?_⟩
  · simp only [PathCall.program, dzfile_unlink, notSysdir,
      Bool.false_eq_true, if_false]
    refine Prog.run_bind_eq_some.mpr ⟨_, _, 0, _, rfl, looked, ?_⟩
    refine
      Prog.run_call_eq_some.mpr
        ⟨.ok 0, [.ok 0], .ok (), ⟨fs.remove q, .empty, .empty⟩, rfl, ?_, ?_⟩
    · simp [kernel, Sys.unlink, present]
    · refine
        Prog.run_call_eq_some.mpr
          ⟨.ok 0, [], .error .ENOENT, _, rfl, ?_, rfl⟩
      simp [kernel, Sys.stat, FileSystem.lookup, Sys.refuse]
  · rw [present]
    simp [FileSystem.lookup]

theorem exposed_dzfile_mkdir (notSysdir : match_sysdir q = false) :
    Exposed platform q .dzfile_mkdir := by
  refine
    ⟨Sys.initial.fs, reachable_initial platform, [.ok 0], 0,
      ⟨Sys.initial.fs.link q .directory, .empty, .empty⟩, ?_, ?_⟩
  · simp only [PathCall.program, dzfile_mkdir, notSysdir,
      Bool.false_eq_true, if_false]
    exact
      Prog.run_call_eq_some.mpr ⟨.ok 0, [], .ok (), _, rfl, rfl, rfl⟩
  · simp [FileSystem.lookup, Sys.initial]

theorem exposed_dzfile_truncate
    (q : CString) {length : Int} (nonneg : ¬ length < 0) :
    Exposed platform q (.dzfile_truncate length) := by
  rcases
    exists_reachable_file platform q (List.replicate (length.toNat + 1) 7) with
    ⟨fs, reachable, present, _⟩
  rcases
    @truncate_of_regular ⟨fs, .empty, .empty⟩ q platform length
      (by simp [nonneg, present]) with
    ⟨ino, named, cut⟩
  rcases run_dzfile_truncate cut with ⟨choices, ran⟩
  refine ⟨fs, reachable, choices, _, _, ran, ?_⟩
  rw [present]
  intro same
  have lengths :
      (ByteSeq.resize 0 ((fs.node ino).bytes platform) length.toNat).length =
        length.toNat + 1 := by
    simp only [FileSystem.lookup, Sys.resizeNode, FileSystem.entry_put,
      FileSystem.node_put] at same
    rw [named, Option.map_some, Function.update_self, Option.some.injEq,
      Node.file.injEq] at same
    rw [same, List.length_replicate]
  simp at lengths

/-- A call that does not spare a hidden name of `p` changes it somewhere. -/
theorem exposed_of_not_spares
    (platform : Platform) {call : PathCall}
    (unsparing : ¬ ((q ≠ p.h5name ∧ q ≠ p.temp) ∨ Refuses p q call)) :
    (q = p.h5name ∨ q = p.temp) ∧ Exposed platform q call := by
  rw [not_or, not_and_or, not_not, not_not] at unsparing
  rcases unsparing with ⟨hidden, admits⟩
  have slash : '/' ∈ q := by
    rcases hidden with rfl | rfl
    · exact slash_mem_h5name p
    · exact slash_mem_temp p
  refine ⟨hidden, ?_⟩
  cases call with
  | dzfile_creat => exact (admits trivial).elim
  | dzfile_open flags =>
      simp only [Refuses, not_or, not_and_or, Bool.not_eq_false,
        Bool.not_eq_true] at admits
      rcases hidden.resolve_left admits.1 with rfl
      exact exposed_dzfile_open admits.2.1 admits.2.2
  | dzfile_unlink =>
      exact exposed_dzfile_unlink slash (by simpa [Refuses] using admits)
  | dzfile_mkdir =>
      exact exposed_dzfile_mkdir (by simpa [Refuses] using admits)
  | dzfile_truncate length => exact exposed_dzfile_truncate q admits

end Exposed

/--
A call on a path for another place isolates the hidden names of `p` exactly
when its path stands for neither of them or it is kept off: always by
`dzfile_creat`, by `dzfile_open` from an image's name or without `O_CREAT` and
`O_TRUNC`, by `dzfile_truncate` with a negative length, and inside `.dzs`.
-/
theorem isolated_iff_spares
    {platform : Platform} {p : Target} {q : CString}
    (normalised : Normalised p.path) (normalised' : Normalised q)
    (different : resolve q ≠ resolve p.path) (call : PathCall) :
    Isolated platform p q call ↔ Spares p q call := by
  rw [spares_iff normalised normalised']
  have other : q ≠ p.path := fun same => different (congrArg resolve same)
  refine ⟨?_, isolated_of_spares other⟩
  intro isolated
  by_contra unsparing
  rcases exposed_of_not_spares platform unsparing with
    ⟨hidden, fs, reachable, choices, ret, later, ran, changed⟩
  have kept := isolated fs reachable _ _ choices ret later ran
  rcases hidden with rfl | rfl
  · exact changed kept.1
  · exact changed kept.2

theorem normalised_targetF : Normalised targetF.path :=
  ⟨[['f']], by
    intro name member
    rw [List.mem_singleton.mp member]
    exact ⟨by decide, by decide, by decide, by decide⟩, rfl⟩

/-- The image of `/f`, and a name that is one character shorter. -/
theorem isolated_iff_spares_unlink :
    ¬ Isolated storingPlatform targetF targetF.h5name .dzfile_unlink ∧
      Isolated storingPlatform targetF ['/', '.', 'f', '.', 'D', 'Z']
        .dzfile_unlink := by
  have image := (normalised_hidden normalised_targetF).1
  have other : Normalised ['/', '.', 'f', '.', 'D', 'Z'] :=
    ⟨[['.', 'f', '.', 'D', 'Z']], by
      intro name member
      rw [List.mem_singleton.mp member]
      exact ⟨by decide, by decide, by decide, by decide⟩, rfl⟩
  constructor
  · rw [isolated_iff_spares normalised_targetF image (by decide)]
    rintro (⟨notImage, _⟩ | inside)
    · exact notImage rfl
    · revert inside
      rw [Refuses]
      decide
  · rw [isolated_iff_spares normalised_targetF other (by decide)]
    exact Or.inl ⟨by decide, by decide⟩

/-- The calls that make `/f` with the byte 7 and convert it. -/
def conversionF : List Called :=
  let writing := Process.empty.setFd 3 (some ⟨0, 0, O_WRONLY⟩)
  let building := Process.empty.setHandle 1 (some ⟨1, true⟩)
  [⟨.empty, .ok 3, .openFile targetF.path O_CREAT⟩,
    ⟨writing, .ok 1, .write 3 [7]⟩,
    ⟨.empty, .ok 1, .h5fcreate targetF.temp⟩,
    ⟨building, .ok 0, .h5dwrite 1 .algorithm Image.zstdText⟩,
    ⟨building, .ok 0,
      .h5dwrite 1 (.block 0) (storingPlatform.libs.zstd.compress [7])⟩,
    ⟨.empty, .ok 0, .rename targetF.temp targetF.h5name⟩,
    ⟨.empty, .ok 0, .truncate targetF.path 0⟩,
    ⟨.empty, .ok 0, .truncate targetF.path 1⟩,
    ⟨building, .ok 0, .h5fclose 1⟩]

/-- `dzfile_unlink` on the name of the image takes the stored bytes away. -/
theorem unlink_removes_foreign_image :
    ¬ ∀ (platform : Platform) (p : Target) (q : CString) (call : PathCall),
        Normalised p.path → Normalised q → q ≠ p.path →
          Isolated platform p q call := by
  intro claimed
  have removed :
      ∃ sys later,
        Transition.run (callStep storingPlatform) Sys.initial conversionF =
            some sys ∧
          (dzfile_unlink targetF.h5name).run (kernel storingPlatform)
              ⟨sys.fs, .empty, .empty⟩ [.ok 0, .ok 0, .ok 0] =
            some (-1, later) ∧
            sys.fs.lookup targetF.h5name ≠ none ∧
              later.fs.lookup targetF.h5name = none :=
    ⟨_, _, rfl, rfl, by decide, rfl⟩
  rcases removed with ⟨sys, later, reached, ran, present, gone⟩
  have isolated :=
    claimed storingPlatform targetF targetF.h5name .dzfile_unlink
      normalised_targetF (normalised_hidden normalised_targetF).1 (by decide)
  have kept :=
    isolated sys.fs ⟨conversionF, sys, reached, rfl⟩ _ _ _ _ _ ran
  exact present (kept.1.symm.trans gone)

end DZFile.Isolation
