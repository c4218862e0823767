import PixelTables.Proofs.Publishing.AllOrSuffix

namespace PixelTables.Publishing

namespace Moving

variable {as : List Artifact} {d e : Disk}

/-- In this order no artifact arrives where a later one still waits. -/
def InOrder (d : Disk) (as : List Artifact) : Prop :=
  as.Pairwise fun a b => d.place a.path ≠ d.place b.path.staging

theorem InOrder.congr (order : InOrder d as) (home : e.home = d.home) : InOrder e as := by
  simpa only [InOrder, Disk.place_congr home] using order

theorem not_mem_stagingPlaces {q : Location} (moving : Moving as d e) (order : InOrder d as)
    (absent : d.lookup q = none) : q ∉ stagingPlaces d as := by
  induction moving with
  | nil d => simp [stagingPlaces]
  | @cons a as bytes d middle e first rest ih =>
    have home := first.confined.home
    obtain ⟨untouched, order⟩ := List.pairwise_cons.mp order
    intro member
    rcases List.mem_cons.mp member with rfl | later
    · have held := first.held
      simp [absent] at held
    · have other : q ≠ d.place a.path := by
        rintro rfl
        obtain ⟨b, present, same⟩ := List.mem_map.mp later
        exact untouched b present same.symm
      apply ih (InOrder.congr order home) (first.absent other absent)
      rwa [stagingPlaces_congr home]

theorem staging_nodup (moving : Moving as d e) (order : InOrder d as) :
    (stagingPlaces d as).Nodup := by
  induction moving with
  | nil d => simp [stagingPlaces]
  | @cons a as bytes d middle e first rest ih =>
    have home := first.confined.home
    obtain ⟨_, order⟩ := List.pairwise_cons.mp order
    have waiting := rest.not_mem_stagingPlaces (InOrder.congr order home) first.left
    have distinct := ih (InOrder.congr order home)
    rw [stagingPlaces_congr home] at waiting distinct
    exact List.nodup_cons.mpr ⟨waiting, distinct⟩

/-- An artifact that arrives where a later one waits is carried off with it, and nothing else
    comes to its place. -/
theorem lost (moving : Moving as d e) (named : ∀ a ∈ as, a.path.fileName.isSome)
    (disorder : ¬ InOrder d as) : ∃ a ∈ as, e.lookup (d.place a.path) = none := by
  induction moving with
  | nil d => exact absurd List.Pairwise.nil disorder
  | @cons a as bytes d middle e first rest ih =>
    have home := first.confined.home
    by_cases order : InOrder d as
    · have taken : ∃ b ∈ as, d.place a.path = d.place b.path.staging := by
        by_contra untouched
        push Not at untouched
        exact disorder (List.pairwise_cons.mpr ⟨untouched, order⟩)
      obtain ⟨b, later, same⟩ := taken
      have waiting := rest.not_mem_stagingPlaces (order.congr home) first.left
      -- an artifact coming to this place would have had the staging file of `a` for its own
      have alone : d.place b.path.staging ∉ destinations d as := by
        intro again
        obtain ⟨c, present, here⟩ := List.mem_map.mp again
        rw [← same] at here
        have twice := (Disk.place_staging_inj (named c (by simp [present]))
          (named a (by simp))).mpr here
        apply waiting
        rw [stagingPlaces_congr home, ← twice]
        exact mem_stagingPlaces present
      have gone := rest.left b later
      rw [Disk.place_congr home, destinations_congr home] at gone
      exact ⟨a, by simp, by rw [same]; exact gone alone⟩
    · have later : ¬ InOrder middle as := fun early => order (early.congr home.symm)
      obtain ⟨b, member, absent⟩ := ih (fun b member => named b (by simp [member])) later
      rw [Disk.place_congr home] at absent
      exact ⟨b, by simp [member], absent⟩

end Moving

theorem publish_eq_ok {as : List Artifact} {d : Disk} (success : (publish as d).2.2 = .ok ()) :
    ∃ middle staged, stage as d = (middle, staged, .ok ()) ∧
      Moving as.reverse middle (publish as d).1 := by
  rcases run : stage as d with ⟨middle, staged, result⟩
  cases result with
  | error failure => simp [publish, run] at success
  | ok _ =>
    obtain ⟨left, done, moved, split, through, last, ⟨_, rfl⟩ | ⟨⟨p, failed⟩, _⟩⟩ := publish_moved run
    · have whole : as = done := split
      have same : (publish as d).1 = moved := by rw [last, List.map_nil, cleanUp]
      rw [same, whole]
      exact ⟨middle, staged, rfl, through⟩
    · rw [success] at failed
      cases failed

theorem publish_error {as : List Artifact} {d : Disk} {failure : Failure}
    (failed : (publish as d).2.2 = .error failure) : ∃ p, failure = .write p := by
  rcases run : stage as d with ⟨middle, staged, result⟩
  cases result with
  | error why =>
    obtain ⟨⟨p, stopped⟩, _⟩ := publish_of_unstaged run
    exact ⟨p, Except.error.inj (failed.symm.trans stopped)⟩
  | ok _ =>
    obtain ⟨_, _, _, _, _, _, ⟨complete, _⟩ | ⟨⟨p, stopped⟩, _⟩⟩ := publish_moved run
    · rw [complete] at failed
      cases failed
    · exact ⟨p, Except.error.inj (failed.symm.trans stopped)⟩

section Success

variable {as : List Artifact} {d : Disk} (success : (publish as d).2.2 = .ok ())
include success

theorem publish_confined :
    Disk.Confined (stagingPlaces d as ++ destinations d as) d (publish as d).1 := by
  obtain ⟨middle, staged, run, through⟩ := publish_eq_ok success
  obtain ⟨_, change⟩ := stage_complete run
  have tail := through.confined
  rw [movedPlaces_congr change.home] at tail
  apply (change.trans tail).mono
  intro q member
  simp only [movedPlaces, stagingPlaces, destinations, List.map_reverse, List.mem_append,
    List.mem_reverse] at member ⊢
  tauto

theorem named_of_publish : ∀ a ∈ as, a.path.fileName.isSome := by
  obtain ⟨middle, staged, run, through⟩ := publish_eq_ok success
  intro a member
  rw [Option.isSome_iff_ne_none]
  intro unnamed
  have directory := Disk.directory_of_unnamed unnamed (stage_located run a member).1
  exact through.free a (List.mem_reverse.mpr member) directory

theorem staging_left :
    ∀ a ∈ as, d.place a.path.staging ∉ destinations d as →
      (publish as d).1.isFile a.path.staging = false := by
  obtain ⟨middle, staged, run, through⟩ := publish_eq_ok success
  obtain ⟨_, change⟩ := stage_complete run
  intro a member outside
  have gone := through.left a (List.mem_reverse.mpr member)
  rw [change.place, destinations_congr change.home] at gone
  apply Disk.isFile_eq_false_of_fileAt
  rw [(publish_confined success).place, Disk.fileAt, gone]
  rwa [destinations, List.map_reverse, List.mem_reverse]

theorem reads_back_iff :
    (∀ a ∈ as, (publish as d).1.readBytes a.path = .ok a.bytes) ↔
      as.Pairwise fun a b => d.place b.path ≠ d.place a.path.staging := by
  obtain ⟨middle, staged, run, through⟩ := publish_eq_ok success
  obtain ⟨_, change⟩ := stage_complete run
  have named := named_of_publish success
  have ordered : Moving.InOrder middle as.reverse ↔
      as.Pairwise fun a b => d.place b.path ≠ d.place a.path.staging := by
    rw [Moving.InOrder, List.pairwise_reverse]
    simp only [change.place]
  rw [← ordered]
  constructor
  · intro back
    by_contra disorder
    obtain ⟨a, member, absent⟩ := through.lost (fun a member => named a (by simpa using member)) disorder
    obtain ⟨_, held, _⟩ := Disk.readBytes_eq_ok.mp (back a (List.mem_reverse.mp member))
    rw [through.confined.place] at held
    simp [absent] at held
  · intro order a member
    have waiting := through.staging_nodup order
    have distinct : (destinations middle as.reverse).Nodup := by
      simp only [destinations, stagingPlaces, List.Nodup, List.pairwise_map] at waiting ⊢
      apply waiting.imp_of_mem
      intro b c first second other same
      rw [List.mem_reverse] at first second
      exact other ((Disk.place_staging_inj (named b first) (named c second)).mpr same)
    have held : ∀ b ∈ as.reverse, middle.lookup (middle.place b.path.staging) = some (.file b.bytes) := by
      have apart : (stagingPlaces d as).Nodup := by
        rw [stagingPlaces, List.map_reverse, List.nodup_reverse] at waiting
        rwa [← stagingPlaces_congr change.home]
      intro b present
      rw [change.place]
      exact stage_holds run apart b (List.mem_reverse.mp present)
    exact through.published distinct waiting order held a (List.mem_reverse.mpr member)

theorem reads_back_alone_iff :
    ((∀ a ∈ as, (publish as d).1.readBytes a.path = .ok a.bytes) ∧
        ∀ a ∈ as, (publish as d).1.isFile a.path.staging = false) ↔
      ∀ a ∈ as, ∀ b ∈ as, d.place a.path ≠ d.place b.path.staging := by
  constructor
  · rintro ⟨back, alone⟩ a first b second same
    obtain ⟨middle, staged, run, through⟩ := publish_eq_ok success
    obtain ⟨located, plain⟩ := stage_located run b second
    obtain ⟨_, held, _⟩ := Disk.readBytes_eq_ok.mp (back a first)
    have change := publish_confined success
    have still := through.confined.locate located
    rw [← through.confined.place] at still
    have file : (publish as d).1.isFile b.path.staging = true := by
      rw [Disk.isFile_iff]
      refine ⟨a.bytes, Disk.readBytes_eq_ok.mpr ⟨still, ?_, plain⟩⟩
      rwa [change.place, ← same, ← change.place]
    simp [alone b second] at file
  · intro apart
    constructor
    · rw [reads_back_iff success]
      apply List.pairwise_of_forall_mem_list
      intro a first b second
      exact apart b second a first
    · intro a member
      apply staging_left success a member
      intro taken
      obtain ⟨b, present, same⟩ := List.mem_map.mp taken
      exact apart b present a member same

end Success

end PixelTables.Publishing
