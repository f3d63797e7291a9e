import DZFile.Opening

/-!
# What `dzfile_dstat` reports

For a directory the counters of the database, each stored in a `uint64_t`; for
a file its own size, and the size of its image where it has one.
-/

namespace DZFile.Dstat

open DZFile.Interaction
open DZFile.Names
open DZFile.Metadata
open DZFile.Kernel
open DZFile.Api
open DZFile.Opening

variable {platform : Platform} {sys later : Sys}

/-- `stat` describes the inode behind the name. -/
theorem stat_found
    {choice : Choice} {path : CString} {stbuf : Stat}
    (called : sys.stat platform choice path = some (.ok stbuf, later)) :
    ∃ node, sys.fs.lookup path = some node ∧
      (stbuf.isDir = true ↔ node = .directory) ∧
        stbuf.size = (node.bytes platform).length := by
  unfold Sys.stat at called
  cases choice with
  | fail errno =>
      simp only [Sys.refuse] at called
      split at called
      · cases called
      · cases called
  | ok number =>
      cases found : sys.fs.lookup path with
      | none =>
          simp only [found, Sys.refuse] at called
          cases called
      | some node =>
          simp only [found] at called
          cases node with
          | directory =>
              cases called
              exact ⟨.directory, rfl, by simp, rfl⟩
          | file content =>
              cases called
              exact ⟨.file content, rfl, by simp, rfl⟩
          | image stored =>
              cases called
              exact ⟨.image stored, rfl, by simp, rfl⟩

/-- The counters are read, and nothing is changed. -/
theorem run_get_space_entry
    {choices : List Choice} {spentry : Field → Int}
    (ran :
      get_space_entry.run (kernel platform) sys choices =
        some (some spentry, later)) :
    spentry = sys.db.space ∧ later = sys := by
  rcases Prog.run_call_eq_some.mp ran with
    ⟨choice, rest, azresult, middle, rfl, called, returned⟩
  cases choice with
  | fail errno =>
      cases called
      rcases Prog.run_ret_eq_some.mp returned with ⟨_, impossible, _⟩
      cases impossible
  | ok number =>
      cases called
      rcases Prog.run_ret_eq_some.mp returned with ⟨_, same, rfl⟩
      cases same
      exact ⟨rfl, rfl⟩

/-- What is reported for a file, with or without an image. -/
theorem totalsize_of_dstatFile
    {path : CString} {stbuf : Stat} {choices : List Choice} {info : Dinfo}
    (ran :
      (dstatFile path stbuf).run (kernel platform) sys choices =
        some (some info, later)) :
    info.totalsize = stbuf.size := by
  rcases Prog.run_bind_eq_some.mp ran with
    ⟨before, after, isexist, middle, rfl, _, reportRan⟩
  split at reportRan
  · split at reportRan
    · rcases Prog.run_ret_eq_some.mp reportRan with ⟨_, impossible, _⟩
      cases impossible
    · rcases Prog.run_call_eq_some.mp reportRan with
        ⟨choice, rest, found, seen, rfl, _, imageRan⟩
      cases found with
      | error errno =>
          rcases Prog.run_ret_eq_some.mp imageRan with ⟨_, impossible, _⟩
          cases impossible
      | ok image =>
          change
            (dstatImage stbuf.size image.size).run _ _ _ = _ at imageRan
          unfold dstatImage at imageRan
          split at imageRan
          · simp at imageRan
          · rcases Prog.run_ret_eq_some.mp imageRan with ⟨_, same, _⟩
            cases same
            rfl
  · rcases Prog.run_ret_eq_some.mp reportRan with ⟨_, same, _⟩
    cases same
    rfl

/-- The report for a directory and for a file. -/
theorem run_dzfile_dstat
    {path : CString} {choices : List Choice} {info : Dinfo}
    (ran :
      (dzfile_dstat path).run (kernel platform) sys choices =
        some (some info, later)) :
    (sys.fs.lookup path = some .directory ∧
        info =
          ⟨toUint64 (sys.db.space .filenum),
            toUint64 (sys.db.space .writtenbytes),
            toUint64 (sys.db.space .diskbytes), 1⟩) ∨
      ∃ node, sys.fs.lookup path = some node ∧ node ≠ .directory ∧
        info.totalsize = (node.bytes platform).length := by
  rcases Prog.run_call_eq_some.mp ran with
    ⟨first, rest, fsbuf, middle, rfl, called, afterStatfs⟩
  have same := kernel_statfs called
  subst same
  cases fsbuf with
  | error errno =>
      rcases Prog.run_ret_eq_some.mp afterStatfs with ⟨_, impossible, _⟩
      cases impossible
  | ok done =>
      change
        (get_space_entry >>= _).run (kernel platform) _ rest =
          some (some info, later) at afterStatfs
      rcases Prog.run_bind_eq_some.mp afterStatfs with
        ⟨before, after, spentry, counted, rfl, countersRan, statRan⟩
      cases spentry with
      | none =>
          rcases Prog.run_ret_eq_some.mp statRan with ⟨_, impossible, _⟩
          cases impossible
      | some spentry =>
          rcases run_get_space_entry countersRan with ⟨rfl, rfl⟩
          rcases Prog.run_call_eq_some.mp statRan with
            ⟨choice, more, found, seen, rfl, looked, reportRan⟩
          cases found with
          | error errno =>
              rcases Prog.run_ret_eq_some.mp reportRan with
                ⟨_, impossible, _⟩
              cases impossible
          | ok stbuf =>
              rcases stat_found looked with ⟨node, lookup, isDir, size⟩
              have unchanged := (stat_reply looked).1
              subst unchanged
              change
                (if stbuf.isDir then _ else dstatFile path stbuf :
                  Call (Option Dinfo)).run _ _ _ = _ at reportRan
              split at reportRan
              · rename_i directory
                rcases Prog.run_ret_eq_some.mp reportRan with ⟨_, same, _⟩
                cases same
                left
                exact ⟨by rw [lookup, isDir.mp directory], rfl⟩
              · rename_i notDirectory
                right
                refine ⟨node, lookup, fun same => ?_, ?_⟩
                · exact notDirectory (isDir.mpr same)
                · rw [totalsize_of_dstatFile reportRan, size]

/-- For a directory the disk usage is the counter as a `uint64_t`. -/
theorem disksize_of_directory
    {path : CString} {choices : List Choice} {info : Dinfo}
    (directory : sys.fs.lookup path = some .directory)
    (ran :
      (dzfile_dstat path).run (kernel platform) sys choices =
        some (some info, later)) :
    info.disksize = toUint64 (sys.db.space .diskbytes) := by
  rcases run_dzfile_dstat ran with ⟨_, rfl⟩ | ⟨node, lookup, other, _⟩
  · rfl
  · rw [directory] at lookup
    cases lookup
    exact (other rfl).elim

/-- For a file the total size is the size of the visible file. -/
theorem totalsize_of_file
    {path : CString} {content : Codec.Bytes} {choices : List Choice}
    {info : Dinfo} (visible : sys.fs.lookup path = some (.file content))
    (ran :
      (dzfile_dstat path).run (kernel platform) sys choices =
        some (some info, later)) :
    info.totalsize = content.length := by
  rcases run_dzfile_dstat ran with ⟨directory, _⟩ | ⟨node, lookup, _, total⟩
  · rw [visible] at directory
    cases directory
  · rw [visible] at lookup
    cases lookup
    exact total

end DZFile.Dstat
