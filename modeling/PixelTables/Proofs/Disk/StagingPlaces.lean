import PixelTables.Proofs.Disk.Places
import PixelTables.Proofs.Results

namespace PixelTables.Disk

theorem foldl_step_moves (pieces : List String) (q : Location) :
    (pieces.filter (· ≠ "")).foldl step q =
      (pieces.filter fun piece => !Path.isIdle piece).foldl step q := by
  induction pieces generalizing q with
  | nil => rfl
  | cons piece rest ih =>
    by_cases empty : piece = ""
    · simpa [empty, Path.isIdle] using ih q
    · by_cases dot : piece = "."
      · simpa [dot, Path.isIdle, step] using ih q
      · simpa [empty, dot, Path.isIdle] using ih (step q piece)

theorem place_eq_moves (d : Disk) (p : Path) : d.place p = p.moves.foldl step (d.start p) :=
  foldl_step_moves _ _

theorem place_join (d : Disk) {base p : Path} (relative : p.isAbsolute = false) :
    d.place (base.join p) = p.moves.foldl step (d.place base) := by
  have origin : d.start (base.join p) = d.start base := by
    simp only [start, Path.isAbsolute_join relative]
  rw [place_eq_moves, place_eq_moves, Path.moves_join relative, List.foldl_append, origin]

theorem step_name {piece : String} (moving : Path.isIdle piece = false) (down : piece ≠ "..")
    (q : Location) : step q piece = q ++ [piece] := by
  simp only [Path.isIdle, Bool.or_eq_false_iff, decide_eq_false_iff_not] at moving
  simp [step, moving.2, down]

theorem place_join_staged (d : Disk) (base : Path) {name : String} (free : '/' ∉ name.toList) :
    d.place (base.join ⟨name ++ ".tmp"⟩) = d.place base ++ [name ++ ".tmp"] := by
  have tail : '/' ∉ (name ++ ".tmp").toList := by simp [free]
  have other : ∀ short : String, short.toList.length < 4 → name ++ ".tmp" ≠ short := by
    rintro short length rfl
    have size : (name ++ ".tmp").toList.length = name.toList.length + 4 := by simp
    omega
  have moving : Path.isIdle (name ++ ".tmp") = false := by
    simp [Path.isIdle, other "" (by decide), other "." (by decide)]
  have down := other ".." (by decide)
  rw [place_join d (Path.join_name_relative tail), Path.moves, Path.pieces_of_free tail]
  simp [moving, step_name moving down]

theorem place_staging_of_named (d : Disk) {p : Path} {name : String}
    (named : p.fileName = some name) :
    ∃ base, d.place p = base ++ [name] ∧ d.place p.staging = base ++ [name ++ ".tmp"] := by
  obtain ⟨down, before, moves⟩ := Path.moves_of_fileName named
  obtain ⟨up, parent, anchor, upMoves⟩ := Path.parent_of_moves moves
  have origin : d.start up = d.start p := by
    rw [start, start, Path.isAbsolute, Path.isAbsolute, anchor]
  have member : name ∈ p.moves := by simp [moves]
  have here : d.place p = d.place up ++ [name] := by
    rw [place_eq_moves, place_eq_moves, moves, upMoves, List.foldl_append]
    simp only [origin, List.foldl_cons, List.foldl_nil]
    rw [step_name (Path.isIdle_of_mem_moves member) down]
  refine ⟨d.place up, here, ?_⟩
  have staging : p.staging = up.join ⟨name ++ ".tmp"⟩ := by
    simp [Path.staging, Path.withFileName, named, parent]
  rw [staging, place_join_staged d up (Path.free_of_mem_moves member)]

theorem place_staging_inj {d : Disk} {p q : Path} (first : p.fileName.isSome)
    (second : q.fileName.isSome) : d.place p.staging = d.place q.staging ↔ d.place p = d.place q := by
  obtain ⟨name, named⟩ := Option.isSome_iff_exists.mp first
  obtain ⟨other, otherNamed⟩ := Option.isSome_iff_exists.mp second
  obtain ⟨base, here, staged⟩ := place_staging_of_named d named
  obtain ⟨otherBase, otherHere, otherStaged⟩ := place_staging_of_named d otherNamed
  rw [here, staged, otherHere, otherStaged]
  simp [List.append_singleton_inj]

theorem staging_of_unnamed {p : Path} (unnamed : p.fileName = none) :
    p.staging = p.join ⟨".tmp"⟩ := by
  simp [Path.staging, Path.withFileName, unnamed]

theorem place_staging_of_unnamed (d : Disk) {p : Path} (unnamed : p.fileName = none) :
    d.place p.staging = d.place p ++ [".tmp"] := by
  rw [staging_of_unnamed unnamed]
  have bare : '/' ∉ "".toList := by simp
  exact place_join_staged d p bare

theorem place_staging_ne (d : Disk) (p : Path) : d.place p ≠ d.place p.staging := by
  intro same
  cases named : p.fileName with
  | none =>
    rw [place_staging_of_unnamed d named] at same
    simpa using congrArg List.length same
  | some name =>
    obtain ⟨base, here, staged⟩ := place_staging_of_named d named
    rw [here, staged] at same
    have text := List.append_singleton_inj.mp same
    simpa using congrArg String.toList text.2

/-- A staging file that can be reached, of a path without a name, lies in a directory at the place
    of the path itself. -/
theorem directory_of_unnamed {d : Disk} {p : Path} {q : Location} (unnamed : p.fileName = none)
    (located : d.locate p.staging = .ok q) : d.lookup (d.place p) = some .directory := by
  have relative : (Path.mk ".tmp").isAbsolute = false := by decide +kernel
  have names : steps (p.join ⟨".tmp"⟩) = steps p ++ [".tmp"] := by
    have last : (Path.mk ".tmp").pieces.filter (· ≠ "") = [".tmp"] := by decide +kernel
    rw [steps, Path.pieces_join_filter relative (by decide), last, steps]
  have origin : d.start (p.join ⟨".tmp"⟩) = d.start p := by
    simp only [start, Path.isAbsolute_join relative]
  rw [staging_of_unnamed unnamed] at located
  obtain ⟨_, followed⟩ := locate_iff.mp located
  rw [names, origin, walk_append] at followed
  obtain ⟨r, walked, last⟩ := bind_eq_ok.mp followed
  have arrived : r = d.place p := walk_eq_ok walked
  rw [← arrived]
  exact (walk_cons_eq_ok.mp last).1

end PixelTables.Disk
