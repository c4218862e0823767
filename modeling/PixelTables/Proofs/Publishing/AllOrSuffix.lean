import PixelTables.Proofs.Publishing.MovedBack

namespace PixelTables.Publishing

theorem cleanUp_removed (paths : List Path) (d : Disk) :
    Disk.Removed (paths.map d.place) d (cleanUp paths d).1 ∧
      ∀ p ∈ paths, (cleanUp paths d).1.isFile p = false := by
  induction paths generalizing d with
  | nil => exact ⟨.refl _ _, by simp⟩
  | cons p rest ih =>
    cases removal : d.removeFile p with
    | ok e =>
      obtain ⟨step, gone⟩ := Disk.removeFile_removed removal
      obtain ⟨tail, none⟩ := ih e
      have places : rest.map e.place = rest.map d.place :=
        List.map_congr_left fun q _ => step.confined.place q
      rw [places] at tail
      simp only [cleanUp, removal]
      refine ⟨step.trans tail, ?_⟩
      intro q member
      rcases List.mem_cons.mp member with rfl | member
      · exact tail.isFile gone
      · exact none q member
    | error why =>
      have absent := Disk.isFile_of_removeFile_error removal
      obtain ⟨tail, none⟩ := ih d
      have same : (cleanUp (p :: rest) d).1 = (cleanUp rest d).1 := by
        cases why <;> simp only [cleanUp, removal]
      rw [same]
      refine ⟨⟨tail.confined.mono (by simp), tail.fewer⟩, ?_⟩
      intro q member
      rcases List.mem_cons.mp member with rfl | member
      · exact tail.isFile absent
      · exact none q member

/-- The file at the path is as it was, and so is what can be read there, unless something was
    missing on the way to it. -/
structure Kept (before after : Disk) (a : Artifact) : Prop where
  file : after.fileAt (before.place a.path) = before.fileAt (before.place a.path)
  reading : before.locate a.path ≠ .error .notFound →
    after.reading a.path = before.reading a.path

/-- What publishing may leave behind, `kept` being what holds of an artifact that was not
    published. -/
structure AllOrSuffix (kept : Artifact → Prop) (as : List Artifact) (before after : Disk)
    (result : Except Failure Unit) : Prop where
  outcome :
    result = .ok () ∧ (∀ a ∈ as, after.readBytes a.path = .ok a.bytes) ∧
        (∀ a ∈ as, after.isFile a.path.staging = false) ∨
      (∃ p, result = .error (.write p)) ∧
        (∃ k < as.length, ∀ i (inside : i < as.length),
          (k < i → after.readBytes as[i].path = .ok as[i].bytes) ∧ (i ≤ k → kept as[i])) ∧
        ∃ n, (∀ a ∈ as.take n, after.isFile a.path.staging = false) ∧
          ∀ a ∈ as.drop n, after.fileAt (before.place a.path.staging) =
            before.fileAt (before.place a.path.staging)
  elsewhere : ∀ q, q ∉ destinations before as → q ∉ stagingPlaces before as →
    after.lookup q = before.lookup q ∨ before.lookup q = none ∧ after.lookup q = some .directory
  pairs : ∀ pairs : List (Artifact × Artifact), as = pairs.flatMap (fun pair => [pair.1, pair.2]) →
    ∀ pair ∈ pairs,
      after.fileAt (before.place pair.1.path) ≠ before.fileAt (before.place pair.1.path) →
      after.readBytes pair.2.path = .ok pair.2.bytes

theorem kept_of_confined {before after : Disk} {places : List Location} {a : Artifact}
    (change : Disk.Confined places before after) (outside : before.place a.path ∉ places)
    (files : ∀ q bytes, before.lookup q = some (.file bytes) → after.lookup q ≠ some .directory) :
    Kept before after a := by
  have file := change.fileAt outside
  refine ⟨file, ?_⟩
  intro present
  rcases before.locate_cases a.path with located | ⟨why, located⟩
  · have later := change.locate located
    rw [← change.place] at later
    apply Option.ext
    intro bytes
    rw [Disk.reading_eq_some, Disk.reading_eq_some, Disk.readBytes_eq_ok, Disk.readBytes_eq_ok,
      ← Disk.fileAt_eq_some, ← Disk.fileAt_eq_some, later, change.place, file, located]
  · obtain ⟨other, refused⟩ := Disk.locate_stays_refused change.home change.directories files
      located (by simpa [located] using present)
    rw [Disk.reading_of_refused located, Disk.reading_of_refused refused]

theorem publish_of_unstaged {as : List Artifact} {before middle : Disk} {staged : List Path}
    {failure : Failure} (run : stage as before = (middle, staged, .error failure)) :
    (∃ p, (publish as before).2.2 = .error (.write p)) ∧
      ∃ done rest, as = done ++ rest ∧
        Disk.Confined (stagingPlaces before done) before (publish as before).1 ∧
        (∀ q bytes, before.lookup q = some (.file bytes) →
          (publish as before).1.lookup q ≠ some .directory) ∧
        ∀ a ∈ done, (publish as before).1.isFile a.path.staging = false := by
  obtain ⟨stay, done, rest, split, names, change, complete | ⟨p, failed⟩⟩ := stage_confined run
  · cases complete.1
  obtain ⟨removed, gone⟩ := cleanUp_removed staged middle
  have last : (publish as before).1 = (cleanUp staged middle).1 := by simp only [publish, run]
  have result : (publish as before).2.2 = .error (.write p) := by simp only [publish, run, failed]
  have places : staged.map middle.place = stagingPlaces before done := by
    rw [names, List.map_map]
    exact List.map_congr_left fun a _ => change.place _
  rw [places] at removed
  refine ⟨⟨p, result⟩, done, rest, split, ?_, ?_, ?_⟩
  · rw [last]
    exact (change.trans removed.confined).mono (by simp)
  · intro q bytes held directory
    rw [last] at directory
    obtain ⟨new, kept⟩ := stay q bytes held
    simp [removed.fewer q _ directory] at kept
  · intro a member
    rw [last]
    exact gone _ (by rw [names]; exact List.mem_map.mpr ⟨a, member, rfl⟩)

theorem publish_moved {as : List Artifact} {before middle : Disk} {staged : List Path}
    (run : stage as before = (middle, staged, .ok ())) :
    ∃ left done moved, as = left ++ done ∧ Moving done.reverse middle moved ∧
      (publish as before).1 = (cleanUp (left.map (·.path.staging)) moved).1 ∧
      ((publish as before).2.2 = .ok () ∧ left = [] ∨
        (∃ p, (publish as before).2.2 = .error (.write p)) ∧ left ≠ []) := by
  rcases moving : moveBack as.reverse middle with ⟨moved, noted, left, result⟩
  obtain ⟨done, parts, through, ends⟩ := moveBack_moving moving
  refine ⟨left, done.reverse, moved, ?_, ?_, ?_, ?_⟩
  · rw [← as.reverse_reverse, parts, List.reverse_append, List.reverse_reverse]
  · rwa [List.reverse_reverse]
  · simp only [publish, run, moving]
  · simpa only [publish, run, moving] using ends

section Staged

variable {as left done : List Artifact} {before middle moved : Disk} {staged : List Path}
  (run : stage as before = (middle, staged, .ok ())) (separate : Separate before as)
  (split : as = left ++ done) (through : Moving done.reverse middle moved)
include run split

include separate in
theorem separate_moved : Separate middle done.reverse := by
  have part := separate.sublist (split ▸ List.sublist_append_right left done)
  exact (part.congr (stage_complete run).2.home).reverse

include separate through in
theorem moved_reads : ∀ a ∈ done, moved.readBytes a.path = .ok a.bytes := by
  have part := separate_moved run separate split
  have change := (stage_complete run).2
  have held : ∀ a ∈ done.reverse, middle.lookup (middle.place a.path.staging) = some (.file a.bytes) := by
    intro a member
    rw [change.place]
    exact stage_holds run separate.stagingDistinct a (by simp_all)
  intro a member
  exact through.published part.distinct part.stagingDistinct part.order held a (by simpa using member)

include separate through in
theorem moved_left : ∀ a ∈ done, moved.isFile a.path.staging = false := by
  have part := separate_moved run separate split
  intro a member
  have present : a ∈ done.reverse := List.mem_reverse.mpr member
  have gone := through.left a present fun taken => part.apart _ taken (mem_stagingPlaces present)
  apply Disk.isFile_eq_false_of_fileAt
  rw [through.confined.place, Disk.fileAt, gone]

include through in
theorem moved_confined :
    Disk.Confined (stagingPlaces before as ++ destinations before done) before moved := by
  have change := (stage_complete run).2
  have tail := through.confined
  rw [movedPlaces_congr change.home] at tail
  apply (change.trans tail).mono
  intro q member
  simp only [movedPlaces, stagingPlaces, destinations, split, List.map_reverse, List.map_append,
    List.mem_append, List.mem_reverse] at member ⊢
  tauto

end Staged

/-- What is known of the disk once everything was staged: the artifacts `left` have not been
    moved, and the later ones have. -/
structure Replaced (as left done : List Artifact) (before after : Disk) : Prop where
  split : as = left ++ done
  confined : Disk.Confined (stagingPlaces before as ++ destinations before done) before after
  files : ∀ q bytes, before.lookup q = some (.file bytes) → after.lookup q ≠ some .directory
  published : ∀ a ∈ done, after.readBytes a.path = .ok a.bytes
  removed : ∀ a ∈ as, after.isFile a.path.staging = false

theorem publish_replaced {as : List Artifact} {before middle : Disk} {staged : List Path}
    (run : stage as before = (middle, staged, .ok ())) (separate : Separate before as) :
    ∃ left done, Replaced as left done before (publish as before).1 ∧
      ((publish as before).2.2 = .ok () ∧ left = [] ∨
        (∃ p, (publish as before).2.2 = .error (.write p)) ∧ left ≠ []) := by
  obtain ⟨left, done, moved, split, through, last, ends⟩ := publish_moved run
  obtain ⟨removed, gone⟩ := cleanUp_removed (left.map (·.path.staging)) moved
  have change := moved_confined run split through
  have places : (left.map (·.path.staging)).map moved.place = stagingPlaces before left := by
    rw [List.map_map]
    exact List.map_congr_left fun a _ => change.place _
  have within : stagingPlaces before left ⊆ stagingPlaces before as := by
    rw [split]
    exact List.map_subset _ (List.subset_append_left left done)
  rw [places, ← last] at removed
  rw [← last] at gone
  refine ⟨left, done, ⟨split, ?_, ?_, ?_, ?_⟩, ends⟩
  · apply (change.trans removed.confined).mono
    intro q member
    rcases List.mem_append.mp member with member | member
    · exact member
    · exact List.mem_append_left _ (within member)
  · intro q bytes old directory
    obtain ⟨new, kept⟩ := (stage_complete run).1 q bytes old
    simp [through.directories _ (removed.fewer q _ directory)] at kept
  · intro a member
    apply removed.confined.readBytes _ (moved_reads run separate split through a member)
    rw [change.place]
    intro taken
    exact separate.apart _ (mem_destinations (by simp [split, member])) (within taken)
  · intro a member
    rw [split, List.mem_append] at member
    rcases member with member | member
    · exact gone _ (List.mem_map.mpr ⟨a, member, rfl⟩)
    · exact removed.isFile (moved_left run separate split through a member)

theorem mem_of_follows {as left done before after : List Artifact} {a b : Artifact}
    (distinct : as.Nodup) (split : as = left ++ done) (follows : as = before ++ a :: b :: after)
    (member : a ∈ done) : b ∈ done := by
  rw [split] at follows distinct
  rcases List.append_eq_append_iff.mp follows with ⟨c, rfl, parts⟩ | ⟨c, rfl, parts⟩
  · simp [parts]
  · cases c with
    | nil =>
      rw [List.nil_append] at parts
      simp [← parts]
    | cons first c =>
      obtain ⟨rfl, _⟩ := List.cons.inj parts
      exact absurd member (List.disjoint_of_nodup_append distinct (by simp))

theorem Separate.nodup {d : Disk} {as : List Artifact} (separate : Separate d as) : as.Nodup :=
  separate.distinct.of_map _

namespace Replaced

variable {as left done : List Artifact} {before after : Disk}
  (change : Replaced as left done before after) (separate : Separate before as)
include change separate

theorem kept {a : Artifact} (member : a ∈ left) : Kept before after a := by
  apply kept_of_confined change.confined _ change.files
  intro taken
  rcases List.mem_append.mp taken with staging | destination
  · have present : a ∈ as := by simp [change.split, member]
    exact separate.apart _ (mem_destinations present) staging
  · have distinct := separate.distinct
    rw [change.split, destinations, List.map_append] at distinct
    exact List.disjoint_of_nodup_append distinct (mem_destinations member) destination

theorem mem_done {a : Artifact} (member : a ∈ as)
    (replaced : after.fileAt (before.place a.path) ≠ before.fileAt (before.place a.path)) :
    a ∈ done := by
  rw [change.split, List.mem_append] at member
  rcases member with member | member
  · exact absurd (change.kept separate member).file replaced
  · exact member

theorem follower {first second : Artifact} {pairs : List (Artifact × Artifact)}
    (flat : as = pairs.flatMap fun pair => [pair.1, pair.2]) (member : (first, second) ∈ pairs)
    (replaced :
      after.fileAt (before.place first.path) ≠ before.fileAt (before.place first.path)) :
    after.readBytes second.path = .ok second.bytes := by
  obtain ⟨earlier, later, parts⟩ := List.append_of_mem member
  have follows : as = earlier.flatMap (fun pair => [pair.1, pair.2]) ++
      first :: second :: later.flatMap (fun pair => [pair.1, pair.2]) := by
    simp [flat, parts]
  have moved := change.mem_done separate (by simp [follows]) replaced
  exact change.published _ (mem_of_follows separate.nodup change.split follows moved)

theorem allOrSuffix {result : Except Failure Unit}
    (ends : result = .ok () ∧ left = [] ∨ (∃ p, result = .error (.write p)) ∧ left ≠ []) :
    AllOrSuffix (Kept before after) as before after result := by
  refine ⟨?_, ?_, ?_⟩
  · rcases ends with ⟨fine, rfl⟩ | ⟨failed, filled⟩
    · have all : as = done := change.split
      exact .inl ⟨fine, all ▸ change.published, change.removed⟩
    · have length := List.length_pos_iff.mpr filled
      have whole : as.length = left.length + done.length := by
        rw [change.split, List.length_append]
      -- the suffix starts behind the last artifact that was not moved
      refine .inr ⟨failed, ⟨left.length - 1, by omega, ?_⟩, as.length, ?_, by simp⟩
      · intro i inside
        constructor
        · intro beyond
          apply change.published
          simp only [change.split, List.getElem_append_right (show left.length ≤ i by omega)]
          exact List.getElem_mem _
        · intro within
          apply change.kept separate
          simp only [change.split, List.getElem_append_left (show i < left.length by omega)]
          exact List.getElem_mem _
      · simpa using change.removed
  · intro q destination staging
    apply change.confined.elsewhere
    simp only [List.mem_append, not_or]
    refine ⟨staging, fun taken => destination ?_⟩
    simp only [change.split, destinations, List.map_append, List.mem_append] at taken ⊢
    exact .inr taken
  · intro pairs flat pair member replaced
    exact change.follower separate flat member replaced

end Replaced

theorem allOrSuffix_of_unstaged {as : List Artifact} {before middle : Disk} {staged : List Path}
    {failure : Failure} (run : stage as before = (middle, staged, .error failure))
    (separate : Separate before as) :
    AllOrSuffix (Kept before (publish as before).1) as before (publish as before).1
      (publish as before).2.2 := by
  obtain ⟨failed, done, rest, split, change, files, gone⟩ := publish_of_unstaged run
  have within : stagingPlaces before done ⊆ stagingPlaces before as := by
    rw [split]
    exact List.map_subset _ (List.subset_append_left done rest)
  have kept : ∀ a ∈ as, Kept before (publish as before).1 a := fun a member =>
    kept_of_confined change (fun taken => separate.apart _ (mem_destinations member) (within taken))
      files
  have filled : as ≠ [] := by
    rintro rfl
    simp [stage] at run
  have length := List.length_pos_iff.mpr filled
  refine ⟨.inr ⟨failed, ⟨as.length - 1, by omega, ?_⟩, done.length, ?_, ?_⟩, ?_, ?_⟩
  · intro i inside
    exact ⟨fun beyond => by omega, fun _ => kept _ (List.getElem_mem inside)⟩
  · simpa [split] using gone
  · intro a member
    have distinct := separate.stagingDistinct
    rw [split, List.drop_left] at member
    rw [split, stagingPlaces, List.map_append] at distinct
    exact change.fileAt fun taken =>
      List.disjoint_of_nodup_append distinct taken (mem_stagingPlaces member)
  · intro q _ outside
    exact change.elsewhere q fun taken => outside (within taken)
  · intro pairs flat pair member replaced
    have present : pair.1 ∈ as := by
      rw [flat]
      exact List.mem_flatMap.mpr ⟨pair, member, by simp⟩
    exact absurd (kept _ present).file replaced

/-- Either all artifacts are published, or a last part of the list is and the others are kept,
    wherever a write breaks off. Nothing else changes, and no staging file is left behind, whole or
    in part. -/
theorem publish_all_or_suffix (as : List Artifact) (before : Disk) (separate : Separate before as) :
    AllOrSuffix (Kept before (publish as before).1) as before (publish as before).1
      (publish as before).2.2 := by
  rcases run : stage as before with ⟨middle, staged, result⟩
  cases result with
  | error failure => exact allOrSuffix_of_unstaged run separate
  | ok _ =>
    obtain ⟨left, done, change, ends⟩ := publish_replaced run separate
    exact change.allOrSuffix separate ends

def partlyFilled : Disk where
  home := ["work"]
  entries := [(["work"], .directory), (["work", "d"], .directory),
    (["work", "old.c"], .file "old".toUTF8)]

/-- The second of these cannot be moved to its place, which is a directory. The first leads through
    a directory that publishing makes. -/
def aroundDirectory : List Artifact :=
  [⟨⟨"new/../old.c"⟩, "first"⟩, ⟨⟨"d"⟩, "second"⟩, ⟨⟨"z.c"⟩, "third"⟩]

theorem aroundDirectory_separate : Separate partlyFilled aroundDirectory :=
  ⟨by decide +kernel, by decide +kernel, by decide +kernel⟩

/-- The same on a disk with room for two bytes only, of the five that the last of these has. -/
def crowded : Disk where
  home := partlyFilled.home
  entries := partlyFilled.entries
  faults q := if q = ["work", "z.c.tmp"] then some 2 else none

/-- Stopped by a directory in the place of an artifact, and by a write that breaks off, whose
    staging file is there in part until it is removed. -/
theorem publish_all_or_suffix_stopped :
    (Separate partlyFilled aroundDirectory ∧
      AllOrSuffix (Kept partlyFilled (publish aroundDirectory partlyFilled).1) aroundDirectory
        partlyFilled (publish aroundDirectory partlyFilled).1
        (publish aroundDirectory partlyFilled).2.2) ∧
      Separate crowded aroundDirectory ∧
      AllOrSuffix (Kept crowded (publish aroundDirectory crowded).1) aroundDirectory
        crowded (publish aroundDirectory crowded).1 (publish aroundDirectory crowded).2.2 ∧
      (stage aroundDirectory crowded).1.reading ⟨"z.c.tmp"⟩ = some "th".toUTF8 ∧
      (publish aroundDirectory crowded).2.2 = .error (.write ⟨"z.c.tmp"⟩) ∧
      (publish aroundDirectory crowded).1.isFile ⟨"z.c.tmp"⟩ = false := by
  have separate : Separate crowded aroundDirectory := aroundDirectory_separate.congr rfl
  refine ⟨⟨aroundDirectory_separate, publish_all_or_suffix _ _ aroundDirectory_separate⟩,
    separate, publish_all_or_suffix _ _ separate, ?_, ?_, ?_⟩
  · decide +kernel
  · decide +kernel
  · decide +kernel

/-- A path of an artifact that was not published can read otherwise than before: it may have led
    through a directory that only publishing has made. -/
theorem publish_reveals_file_behind_new_directory :
    Separate partlyFilled aroundDirectory ∧
      ¬ AllOrSuffix
        (fun a => (publish aroundDirectory partlyFilled).1.reading a.path =
          partlyFilled.reading a.path)
        aroundDirectory partlyFilled (publish aroundDirectory partlyFilled).1
        (publish aroundDirectory partlyFilled).2.2 := by
  refine ⟨aroundDirectory_separate, ?_⟩
  intro claimed
  rcases claimed.outcome with ⟨fine, _⟩ | ⟨_, ⟨k, _, parts⟩, _⟩
  · have failed : (publish aroundDirectory partlyFilled).2.2.isOk = false := by decide +kernel
    rw [fine] at failed
    cases failed
  · have same := (parts 0 (by decide)).2 (Nat.zero_le k)
    have absent : partlyFilled.reading ⟨"new/../old.c"⟩ = none := by decide +kernel
    have present : (publish aroundDirectory partlyFilled).1.reading ⟨"new/../old.c"⟩ =
        some "old".toUTF8 := by decide +kernel
    have equal := present.symm.trans (same.trans absent)
    cases equal

end PixelTables.Publishing
