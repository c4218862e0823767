import PixelTables.Proofs.Disk.Progress
import PixelTables.Proofs.Path.Joined

namespace PixelTables.Disk

variable {d e : Disk} {from_ q : Location} {p : Path}

theorem directory_of_walk {pieces : List String} (walked : d.walk from_ pieces = .ok q)
    (last : d.lookup q = some .directory) : d.lookup from_ = some .directory := by
  cases pieces with
  | nil => rwa [Except.ok.inj walked]
  | cons piece rest => exact (walk_cons_eq_ok.mp walked).1

theorem walk_filter_dots (last : d.lookup q = some .directory) (pieces : List String) :
    d.walk from_ (pieces.filter (· ≠ ".")) = .ok q ↔ d.walk from_ pieces = .ok q := by
  induction pieces generalizing from_ with
  | nil => rfl
  | cons piece rest ih =>
    by_cases dot : piece = "."
    · subst dot
      have short : ".".utf8ByteSize ≤ maxNameSize := by decide
      have stays : step from_ "." = from_ := if_pos rfl
      rw [List.filter_cons_of_neg (by simp), ih, walk_cons_eq_ok, stays]
      exact ⟨fun walked => ⟨directory_of_walk walked last, short, walked⟩, fun walked => walked.2.2⟩
    · rw [List.filter_cons_of_pos (by simpa using dot), walk_cons_eq_ok, walk_cons_eq_ok, ih]

theorem steps_filter_dots (p : Path) : (steps p).filter (· ≠ ".") = p.moves := by
  rw [steps, List.filter_filter, Path.moves]
  apply List.filter_congr
  intro piece _
  simp [Path.isIdle, Bool.and_comm]

theorem followable_of_isDirectory (here : d.isDirectory p = true) : Followable p :=
  (locate_iff.mp (isDirectory_iff.mp here).1).1

theorem isDirectory_iff_moves (can : Followable p) : d.isDirectory p = true ↔
    d.walk (d.start p) p.moves = .ok (d.place p) ∧ d.lookup (d.place p) = some .directory := by
  rw [isDirectory_iff, locate_iff, ← steps_filter_dots]
  refine and_congr_left fun last => ?_
  rw [walk_filter_dots last]
  exact and_iff_right can

/-- Where one spelling of a path names a directory, so does every other that can be followed. -/
theorem isDirectory_of_same {p q : Path} (same : p.Same q) (can : Followable q)
    (here : d.isDirectory p = true) : d.isDirectory q = true := by
  have moves : p.moves = q.moves := ((Path.same_iff p q).mp same).2
  have start : d.start p = d.start q := by rw [Disk.start, Disk.start, same.isAbsolute_eq]
  have place : d.place p = d.place q := by rw [place_eq_moves, place_eq_moves, start, moves]
  rw [isDirectory_iff_moves (followable_of_isDirectory here), start, moves, place] at here
  exact (isDirectory_iff_moves can).mpr here

end PixelTables.Disk
