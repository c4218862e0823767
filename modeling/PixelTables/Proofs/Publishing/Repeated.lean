import PixelTables.Proofs.Disk.Progress
import PixelTables.Proofs.Publishing.ReadBack

namespace PixelTables

namespace Disk

variable {d : Disk} {keep : Location → Bool} {q : Location}

def entriesAt (d : Disk) (keep : Location → Bool) : List (Location × Entry) :=
  d.entries.filter fun x => keep x.1

theorem eq_of_entries {e : Disk} (home : e.home = d.home) (faults : e.faults = d.faults)
    (entries : e.entries = d.entries) : e = d := by
  cases d
  cases e
  simp only at home faults entries
  rw [home, faults, entries]

theorem entriesAt_erase (dropped : keep q = false) :
    (d.erase q).entriesAt keep = d.entriesAt keep := by
  rw [entriesAt, erase, List.filter_filter]
  apply List.filter_congr
  intro x _
  by_cases same : x.1 = q
  · simp [same, dropped]
  · simp [same]

theorem entriesAt_insert (dropped : keep q = false) (entry : Entry) :
    (d.insert q entry).entriesAt keep = d.entriesAt keep := by
  have rest := entriesAt_erase (d := d) dropped
  rw [entriesAt, insert, List.filter_cons_of_neg (by simp [dropped])]
  exact rest

theorem entriesAt_insert_kept (kept : keep q = true) (entry : Entry) :
    (d.insert q entry).entriesAt keep = (q, entry) :: (d.erase q).entriesAt keep := by
  rw [entriesAt, insert, List.filter_cons_of_pos (by simp [kept])]
  rfl

theorem entriesAt_of_erase :
    (d.erase q).entriesAt keep = d.entriesAt fun place => keep place && place ≠ q := by
  rw [entriesAt, erase, List.filter_filter]
  rfl

end Disk

namespace Publishing

def arrivals (d : Disk) (as : List Artifact) : List (Location × Entry) :=
  as.map fun a => (d.place a.path, .file a.bytes)

def elsewhere (d : Disk) (as : List Artifact) (q : Location) : Bool := q ∉ movedPlaces d as

theorem arrivals_congr {d e : Disk} (home : e.home = d.home) (as : List Artifact) :
    arrivals e as = arrivals d as := by
  simp only [arrivals, Disk.place_congr home]

theorem elsewhere_congr {d e : Disk} (home : e.home = d.home) (as : List Artifact) :
    elsewhere e as = elsewhere d as := by
  funext q
  rw [elsewhere, elsewhere, movedPlaces_congr home]

theorem arrivals_reverse (d : Disk) (as : List Artifact) :
    arrivals d as.reverse = (arrivals d as).reverse := List.map_reverse

theorem elsewhere_reverse (d : Disk) (as : List Artifact) :
    elsewhere d as.reverse = elsewhere d as := by
  funext q
  simp only [elsewhere, movedPlaces, stagingPlaces, destinations, List.map_reverse,
    List.mem_append, List.mem_reverse]

theorem elsewhere_cons (d : Disk) (a : Artifact) (as : List Artifact) :
    elsewhere d (a :: as) = fun q =>
      (elsewhere d as q && q ≠ d.place a.path) && q ≠ d.place a.path.staging := by
  funext q
  rw [Bool.eq_iff_iff]
  simp only [elsewhere, movedPlaces, stagingPlaces, destinations, List.map_cons, List.cons_append,
    List.mem_cons, List.mem_append, Bool.and_eq_true, decide_eq_true_eq]
  tauto

theorem stage_reads {as : List Artifact} {d e : Disk} {staged : List Path}
    (run : stage as d = (e, staged, .ok ())) (distinct : (stagingPlaces d as).Nodup) :
    ∀ a ∈ as, e.readBytes a.path.staging = .ok a.bytes := by
  obtain ⟨_, change⟩ := stage_complete run
  intro a member
  obtain ⟨located, plain⟩ := stage_located run a member
  refine Disk.readBytes_eq_ok.mpr ⟨located, ?_, plain⟩
  rw [change.place]
  exact stage_holds run distinct a member

section Moves

variable {a : Artifact} {as : List Artifact} {bytes : ByteArray} {d e : Disk}
  (separate : Separate d (a :: as))
include separate

theorem arrival_elsewhere : elsewhere d as (d.place a.path) = true := by
  obtain ⟨fresh, _⟩ := List.nodup_cons.mp separate.distinct
  have waiting := separate.apart _ (mem_destinations List.mem_cons_self)
  simp only [elsewhere, movedPlaces, List.mem_append, not_or, decide_eq_true_eq]
  exact ⟨fun member => waiting (List.mem_cons_of_mem _ member), fresh⟩

theorem reads_on (first : Disk.Moved a.path.staging a.path bytes d e)
    (staged : ∀ b ∈ a :: as, d.readBytes b.path.staging = .ok b.bytes) :
    ∀ b ∈ as, e.readBytes b.path.staging = .ok b.bytes := by
  obtain ⟨fresh, _⟩ := List.nodup_cons.mp separate.stagingDistinct
  intro b member
  apply first.confined.readBytes _ (staged b (by simp [member]))
  simp only [List.mem_cons, List.not_mem_nil, or_false, not_or]
  refine ⟨fun same => fresh (List.mem_map.mpr ⟨b, member, same⟩), fun same => ?_⟩
  exact separate.apart _ (mem_destinations List.mem_cons_self)
    (List.mem_map.mpr ⟨b, by simp [member], same⟩)

end Moves

/-- Moving puts the artifacts on top, in their order, and drops nothing else. -/
theorem moveBack_entries {as left : List Artifact} {d e : Disk} {noted : Journal}
    (run : moveBack as d = (e, noted, left, .ok ())) (separate : Separate d as)
    (staged : ∀ a ∈ as, d.readBytes a.path.staging = .ok a.bytes) :
    e.home = d.home ∧ e.entries = (arrivals d as).reverse ++ d.entriesAt (elsewhere d as) := by
  induction as generalizing d noted with
  | nil =>
    simp only [moveBack, Prod.mk.injEq] at run
    obtain ⟨rfl, _⟩ := run
    simp [arrivals, elsewhere, movedPlaces, stagingPlaces, destinations, Disk.entriesAt]
  | cons a as ih =>
    cases move : d.moveFile a.path.staging a.path with
    | error why => simp [moveBack, move] at run
    | ok moved =>
      rcases later : moveBack as moved with ⟨last, more, rest, result⟩
      simp only [moveBack, move, later, Prod.mk.injEq] at run
      obtain ⟨rfl, _, rfl, rfl⟩ := run
      obtain ⟨_, first⟩ := Disk.moveFile_moved move (d.place_staging_ne a.path)
      have home := first.confined.home
      have tail := (separate.sublist (List.sublist_cons_self a as)).congr home
      obtain ⟨lastHome, entries⟩ := ih later tail (reads_on separate first staged)
      obtain ⟨bytes, held, _, same⟩ := Disk.moveFile_eq_ok move
      obtain ⟨_, here, _⟩ := Disk.readBytes_eq_ok.mp (staged a (by simp))
      have own : bytes = a.bytes := by simpa [held] using here
      -- the artifact that was moved lies just below the ones that are moved after it
      have others : moved.entriesAt (elsewhere d as) =
          (d.place a.path, .file a.bytes) :: d.entriesAt (elsewhere d (a :: as)) := by
        rw [same, own, Disk.entriesAt_insert_kept (arrival_elsewhere separate),
          Disk.entriesAt_of_erase, Disk.entriesAt_of_erase, elsewhere_cons]
      refine ⟨lastHome.trans home, ?_⟩
      rw [entries, arrivals_congr home, elsewhere_congr home, others, arrivals, arrivals,
        List.map_cons, List.reverse_cons, List.append_assoc]
      rfl

theorem moveBack_arrives {as : List Artifact} {d : Disk} (separate : Separate d as)
    (staged : ∀ a ∈ as, d.readBytes a.path.staging = .ok a.bytes)
    (open_ : ∀ a ∈ as, d.Writable a.path) : ∃ e noted, moveBack as d = (e, noted, [], .ok ()) := by
  induction as generalizing d with
  | nil => exact ⟨d, [], rfl⟩
  | cons a as ih =>
    have move := Disk.moveFile_of_writable (staged a (by simp)) (open_ a (by simp))
    obtain ⟨_, first⟩ := Disk.moveFile_moved move (d.place_staging_ne a.path)
    have tail := (separate.sublist (List.sublist_cons_self a as)).congr first.confined.home
    have ahead : ∀ b ∈ as, Disk.Writable _ b.path := fun b member =>
      (open_ b (by simp [member])).mono first.confined first.directories
    obtain ⟨e, noted, later⟩ := ih tail (reads_on separate first staged) ahead
    exact ⟨e, wrote a.path :: noted, by simp only [moveBack, move, later]⟩

structure Prepared (d : Disk) (as : List Artifact) : Prop where
  rooms : ∀ a ∈ as, ∀ dir, directory? a.path = some dir → d.isDirectory dir = true
  places : ∀ a ∈ as, d.Writable a.path.staging
  sound : ∀ a ∈ as, d.faults (d.place a.path.staging) = none

theorem Prepared.mono {as bs : List Artifact} {places : List Location} {d e : Disk}
    (prepared : Prepared d as) (subset : bs ⊆ as) (change : Disk.Confined places d e)
    (directories : Disk.NoDirectoryMade d e) : Prepared e bs where
  rooms a member dir here := change.isDirectory (prepared.rooms a (subset member) dir here)
  places a member := (prepared.places a (subset member)).mono change directories
  sound a member := by
    rw [change.faults, change.place]
    exact prepared.sound a (subset member)

theorem makeRoom_of_isDirectory {a : Artifact} {d : Disk}
    (room : ∀ dir, directory? a.path = some dir → d.isDirectory dir = true) :
    makeRoom d a = (d, .ok ()) := by
  rw [makeRoom]
  cases above : directory? a.path with
  | none => rfl
  | some dir => simp only [Disk.makeDirectories_of_isDirectory (room dir above)]

theorem stage_prepared {as : List Artifact} {d : Disk} (prepared : Prepared d as) :
    ∃ e staged, stage as d = (e, staged, .ok ()) ∧ Disk.NoDirectoryMade d e ∧
      ∀ keep : Location → Bool, (∀ q ∈ stagingPlaces d as, keep q = false) →
        e.entriesAt keep = d.entriesAt keep := by
  induction as generalizing d with
  | nil => exact ⟨d, [], rfl, fun _ here => here, fun _ _ => rfl⟩
  | cons a as ih =>
    have room := makeRoom_of_isDirectory (prepared.rooms a (by simp))
    have written := Disk.writeFile_of_writable (prepared.places a (by simp))
      (prepared.sound a (by simp)) a.bytes
    have change := Disk.writeFile_confined written
    have directories := Disk.writeFile_directories written
    obtain ⟨e, staged, later, more, same⟩ :=
      ih (prepared.mono (List.subset_cons_self a as) change directories)
    refine ⟨e, a.path.staging :: staged, by simp only [stage, room, written, later],
      directories.trans more, fun keep dropped => ?_⟩
    have here : keep (d.place a.path.staging) = false := dropped _ (mem_stagingPlaces (by simp))
    rw [same keep, Disk.entriesAt_insert here]
    intro q member
    rw [stagingPlaces_congr change.home] at member
    exact dropped q (List.mem_cons_of_mem _ member)

theorem isDirectory_of_makeRoom {a : Artifact} {d made : Disk} {dir : Path}
    (room : makeRoom d a = (made, .ok ())) (above : directory? a.path = some dir) :
    made.isDirectory dir = true := by
  have filled : dir.text ≠ "" := by simpa using (Option.filter_eq_some_iff.mp above).2
  simp only [makeRoom, above] at room
  rcases asked : d.makeDirectories dir with ⟨e, result⟩
  cases result with
  | error why => simp [asked] at room
  | ok _ =>
    simp only [asked, Prod.mk.injEq, and_true] at room
    exact Disk.isDirectory_of_makeDirectories filled (asked.trans (by rw [room]))

theorem stage_rooms {as : List Artifact} {d e : Disk} {staged : List Path}
    (run : stage as d = (e, staged, .ok ())) :
    ∀ a ∈ as, ∀ dir, directory? a.path = some dir → e.isDirectory dir = true := by
  intro a member dir above
  obtain ⟨_, made, wrote, room, _, written, tail⟩ := stage_each run a member
  have step := Disk.writeFile_confined written
  exact tail.isDirectory (step.isDirectory (isDirectory_of_makeRoom room above))

theorem stage_sound {as : List Artifact} {d e : Disk} {staged : List Path}
    (run : stage as d = (e, staged, .ok ())) :
    ∀ a ∈ as, d.faults (d.place a.path.staging) = none := by
  intro a member
  obtain ⟨_, made, wrote, _, before, written, _⟩ := stage_each run a member
  obtain ⟨_, sound, _⟩ := Disk.writeFile_eq_ok written
  rwa [before.faults, before.place] at sound

section Success

variable {as : List Artifact} {d : Disk} (separate : Separate d as)
include separate

/-- Of a disk that was published to, the artifacts are the first entries, and the others are as
    staging left them. -/
theorem publish_entries (success : (publish as d).2.2 = .ok ()) :
    ∃ middle staged, stage as d = (middle, staged, .ok ()) ∧
      (publish as d).1.home = d.home ∧
      (publish as d).1.entries = arrivals d as ++ middle.entriesAt (elsewhere d as) := by
  obtain ⟨middle, staged, run, through⟩ := publish_eq_ok success
  obtain ⟨_, change⟩ := stage_complete run
  have reads := stage_reads run separate.stagingDistinct
  have back := (separate.congr change.home).reverse
  rcases moving : moveBack as.reverse middle with ⟨moved, noted, left, result⟩
  obtain ⟨rfl, rfl⟩ : left = [] ∧ result = .ok () := by
    simp only [publish, run, moving] at success
    obtain ⟨done, _, _, ⟨fine, rest⟩ | ⟨⟨p, failed⟩, _⟩⟩ := moveBack_moving moving
    · exact ⟨rest, fine⟩
    · simp [success] at failed
  have last : (publish as d).1 = moved := by simp only [publish, run, moving, List.map_nil, cleanUp]
  obtain ⟨home, entries⟩ := moveBack_entries moving back (by simpa using reads)
  refine ⟨middle, staged, run, by rw [last, home, change.home], ?_⟩
  rw [last, entries, arrivals_congr change.home, elsewhere_congr change.home, arrivals_reverse,
    elsewhere_reverse, List.reverse_reverse]

theorem entriesAt_published (success : (publish as d).2.2 = .ok ()) :
    (publish as d).1.entries = arrivals d as ++ (publish as d).1.entriesAt (elsewhere d as) := by
  obtain ⟨middle, _, _, _, entries⟩ := publish_entries separate success
  have gone : (arrivals d as).filter (fun x => elsewhere d as x.1) = [] := by
    rw [List.filter_eq_nil_iff]
    intro x member
    obtain ⟨a, present, rfl⟩ := List.mem_map.mp member
    have taken : d.place a.path ∈ movedPlaces d as :=
      List.mem_append_right _ (mem_destinations present)
    simp [elsewhere, taken]
  rw [Disk.entriesAt, entries, List.filter_append, gone, List.nil_append, Disk.entriesAt,
    List.filter_filter]
  simp only [Bool.and_self]

theorem publish_prepares (success : (publish as d).2.2 = .ok ()) :
    Prepared (publish as d).1 as := by
  obtain ⟨middle, staged, run, through⟩ := publish_eq_ok success
  refine ⟨?_, ?_, ?_⟩
  · intro a member dir above
    exact through.confined.isDirectory (stage_rooms run a member dir above)
  · intro a member
    have waiting := stage_reads run separate.stagingDistinct a member
    exact (Disk.Writable.of_readBytes waiting).mono through.confined through.directories
  · intro a member
    have change := publish_confined success
    rw [change.faults, change.place]
    exact stage_sound run a member

theorem publish_prepared (prepared : Prepared d as) (targets : ∀ a ∈ as, d.Writable a.path) :
    (publish as d).2.2 = .ok () ∧ (publish as d).1.home = d.home ∧
      (publish as d).1.entries = arrivals d as ++ d.entriesAt (elsewhere d as) := by
  obtain ⟨middle, staged, run, directories, same⟩ := stage_prepared prepared
  obtain ⟨_, change⟩ := stage_complete run
  have reads := stage_reads run separate.stagingDistinct
  have still : ∀ a ∈ as, middle.Writable a.path := fun a member =>
    (targets a member).mono change directories
  obtain ⟨last, noted, moved⟩ := moveBack_arrives (separate.congr change.home).reverse
    (by simpa using reads) (by simpa using still)
  have success : (publish as d).2.2 = .ok () := by simp only [publish, run, moved]
  obtain ⟨other, _, again, home, entries⟩ := publish_entries separate success
  obtain rfl : middle = other := (Prod.mk.inj (run.symm.trans again)).1
  refine ⟨success, home, ?_⟩
  rw [entries, same]
  intro q member
  simp [elsewhere, movedPlaces, member]

/-- Artifacts that were published can be published again, and that changes nothing. -/
theorem publish_again (success : (publish as d).2.2 = .ok ()) :
    (publish as (publish as d).1).2.2 = .ok () ∧
      (publish as (publish as d).1).1 = (publish as d).1 := by
  have prepared := publish_prepares separate success
  have order : as.Pairwise fun a b => d.place b.path ≠ d.place a.path.staging :=
    List.pairwise_of_forall_mem_list fun a first b second same =>
      separate.apart _ (mem_destinations second) (same ▸ mem_stagingPlaces first)
  have targets : ∀ a ∈ as, (publish as d).1.Writable a.path := fun a member =>
    .of_readBytes ((reads_back_iff success).mpr order a member)
  have home := (publish_confined success).home
  -- the artifacts are on top already, and nothing below them is at one of their places
  have stable := entriesAt_published separate success
  generalize (publish as d).1 = e at *
  obtain ⟨fine, homeAgain, entries⟩ := publish_prepared (separate.congr home) prepared targets
  rw [arrivals_congr home, elsewhere_congr home, ← stable] at entries
  exact ⟨fine, Disk.eq_of_entries homeAgain (publish_confined fine).faults entries⟩

end Success

end Publishing

end PixelTables
