import PixelTables.Proofs.Publishing.Staged
import Mathlib.Data.List.Nodup

namespace PixelTables.Publishing

/-- Artifacts that go to different files, none of which is the staging file of one of them. -/
structure Separate (d : Disk) (as : List Artifact) : Prop where
  named : ∀ a ∈ as, a.path.fileName.isSome
  distinct : (destinations d as).Nodup
  apart : ∀ q ∈ destinations d as, q ∉ stagingPlaces d as

namespace Separate

variable {d : Disk} {as : List Artifact}

theorem stagingDistinct (separate : Separate d as) : (stagingPlaces d as).Nodup := by
  have pairwise := separate.distinct
  simp only [destinations, stagingPlaces, List.Nodup, List.pairwise_map] at pairwise ⊢
  apply pairwise.imp_of_mem
  intro a b first second other same
  exact other ((Disk.place_staging_inj (separate.named a first) (separate.named b second)).mp same)

theorem order (separate : Separate d as) :
    as.Pairwise fun a b => d.place a.path ≠ d.place b.path.staging := by
  apply List.pairwise_of_forall_mem_list
  intro a first b second same
  exact separate.apart _ (mem_destinations first) (same ▸ mem_stagingPlaces second)

theorem sublist {some : List Artifact} (separate : Separate d as) (sub : some.Sublist as) :
    Separate d some where
  named a member := separate.named a (sub.subset member)
  distinct := separate.distinct.sublist (sub.map _)
  apart q member taken :=
    separate.apart q ((sub.map _).subset member) ((sub.map _).subset taken)

theorem reverse (separate : Separate d as) : Separate d as.reverse where
  named a member := separate.named a (List.mem_reverse.mp member)
  distinct := by
    rw [destinations, List.map_reverse]
    exact List.nodup_reverse.mpr separate.distinct
  apart q member taken := by
    rw [destinations, List.map_reverse, List.mem_reverse] at member
    rw [stagingPlaces, List.map_reverse, List.mem_reverse] at taken
    exact separate.apart q member taken

theorem congr {e : Disk} (separate : Separate d as) (home : e.home = d.home) : Separate e as where
  named := separate.named
  distinct := by
    rw [destinations_congr home]
    exact separate.distinct
  apart := by
    rw [destinations_congr home, stagingPlaces_congr home]
    exact separate.apart

end Separate

theorem moveBack_cons {a : Artifact} {as left : List Artifact} {d e : Disk} {noted : Journal}
    {result : Except Failure Unit} (run : moveBack (a :: as) d = (e, noted, left, result)) :
    e = d ∧ left = (a :: as).reverse ∧ result = .error (.write a.path) ∨
      ∃ bytes moved more, Disk.Moved a.path.staging a.path bytes d moved ∧
        moveBack as moved = (e, more, left, result) := by
  cases move : d.moveFile a.path.staging a.path with
  | error why =>
    simp only [moveBack, move, Prod.mk.injEq] at run
    obtain ⟨rfl, _, rfl, rfl⟩ := run
    exact .inl ⟨rfl, rfl, rfl⟩
  | ok moved =>
    cases later : moveBack as moved with
    | mk last outcome =>
      obtain ⟨more, rest, final⟩ := outcome
      simp only [moveBack, move, later, Prod.mk.injEq] at run
      obtain ⟨rfl, _, rfl, rfl⟩ := run
      obtain ⟨bytes, moved'⟩ := Disk.moveFile_moved move (d.place_staging_ne a.path)
      exact .inr ⟨bytes, moved, more, moved', later⟩

inductive Moving : List Artifact → Disk → Disk → Prop
  | nil (d : Disk) : Moving [] d d
  | cons {a : Artifact} {as : List Artifact} {bytes : ByteArray} {d middle e : Disk}
      (first : Disk.Moved a.path.staging a.path bytes d middle) (rest : Moving as middle e) :
      Moving (a :: as) d e

theorem moveBack_moving {as left : List Artifact} {d e : Disk} {noted : Journal}
    {result : Except Failure Unit} (run : moveBack as d = (e, noted, left, result)) :
    ∃ done, as = done ++ left.reverse ∧ Moving done d e ∧
      (result = .ok () ∧ left = [] ∨ (∃ p, result = .error (.write p)) ∧ left ≠ []) := by
  induction as generalizing d noted with
  | nil =>
    simp only [moveBack, Prod.mk.injEq] at run
    obtain ⟨rfl, _, rfl, rfl⟩ := run
    exact ⟨[], rfl, .nil _, .inl ⟨rfl, rfl⟩⟩
  | cons a as ih =>
    rcases moveBack_cons run with ⟨rfl, rfl, rfl⟩ | ⟨bytes, middle, more, first, later⟩
    · exact ⟨[], by simp, .nil _, .inr ⟨⟨a.path, rfl⟩, by simp⟩⟩
    · obtain ⟨done, rfl, rest, outcome⟩ := ih later
      exact ⟨a :: done, rfl, .cons first rest, outcome⟩

def movedPlaces (d : Disk) (as : List Artifact) : List Location :=
  stagingPlaces d as ++ destinations d as

theorem movedPlaces_congr {d e : Disk} (home : e.home = d.home) (as : List Artifact) :
    movedPlaces e as = movedPlaces d as := by
  rw [movedPlaces, movedPlaces, stagingPlaces_congr home, destinations_congr home]

namespace Moving

variable {as : List Artifact} {d e : Disk}

theorem directories (moving : Moving as d e) : Disk.NoDirectoryMade d e := by
  induction moving with
  | nil d => exact fun _ here => here
  | cons first _ ih => exact first.directories.trans ih

theorem confined (moving : Moving as d e) : Disk.Confined (movedPlaces d as) d e := by
  induction moving with
  | nil d => exact .refl _ d
  | cons first _ ih =>
    rw [movedPlaces_congr first.confined.home] at ih
    apply (first.confined.trans ih).mono
    intro q member
    simp only [movedPlaces, stagingPlaces, destinations, List.map_cons, List.cons_append,
      List.nil_append, List.mem_cons, List.mem_append] at member ⊢
    tauto

theorem absent {q : Location} (moving : Moving as d e) (outside : q ∉ destinations d as)
    (absent : d.lookup q = none) : e.lookup q = none := by
  induction moving with
  | nil d => exact absent
  | cons first _ ih =>
    simp only [destinations, List.map_cons, List.mem_cons, not_or] at outside
    apply ih
    · rw [destinations_congr first.confined.home]
      exact outside.2
    · exact first.absent outside.1 absent

theorem left (moving : Moving as d e) :
    ∀ a ∈ as, d.place a.path.staging ∉ destinations d as →
      e.lookup (d.place a.path.staging) = none := by
  induction moving with
  | nil d => simp
  | cons first rest ih =>
    have home := first.confined.home
    intro b member outside
    simp only [destinations, List.map_cons, List.mem_cons, not_or] at outside
    rcases List.mem_cons.mp member with rfl | member
    · apply rest.absent _ first.left
      rw [destinations_congr home]
      exact outside.2
    · have gone := ih b member
      rw [Disk.place_congr home, destinations_congr home] at gone
      exact gone outside.2

theorem free (moving : Moving as d e) : ∀ a ∈ as, d.lookup (d.place a.path) ≠ some .directory := by
  induction moving with
  | nil d => simp
  | cons first _ ih =>
    intro b member directory
    rcases List.mem_cons.mp member with rfl | member
    · exact first.free directory
    · apply ih b member
      rw [first.confined.place]
      exact first.confined.directories _ directory

/-- Artifacts read back from their places once they have been moved there, unless a later move
    takes one away again. -/
theorem published (moving : Moving as d e) (distinct : (destinations d as).Nodup)
    (waiting : (stagingPlaces d as).Nodup)
    (order : as.Pairwise fun a b => d.place a.path ≠ d.place b.path.staging)
    (staged : ∀ a ∈ as, d.lookup (d.place a.path.staging) = some (.file a.bytes)) :
    ∀ a ∈ as, e.readBytes a.path = .ok a.bytes := by
  induction moving with
  | nil d => simp
  | @cons a as bytes d middle e first rest ih =>
    have home := first.confined.home
    obtain ⟨other, distinct⟩ := List.nodup_cons.mp distinct
    obtain ⟨otherStaged, waiting⟩ := List.nodup_cons.mp waiting
    obtain ⟨untouched, order⟩ := List.pairwise_cons.mp order
    have sameBytes : bytes = a.bytes := by
      have held := first.held
      rw [staged a (by simp)] at held
      simpa using held.symm
    intro b member
    -- the first is out of reach of the later moves, and the others wait on as before
    rcases List.mem_cons.mp member with rfl | member
    · apply rest.confined.readBytes
      · rw [movedPlaces_congr home, first.confined.place, movedPlaces, List.mem_append, not_or]
        refine ⟨fun taken => ?_, other⟩
        obtain ⟨c, later, same⟩ := List.mem_map.mp taken
        exact untouched c later same.symm
      · rw [← sameBytes]
        exact first.read
    · refine ih ?_ ?_ ?_ ?_ b member
      · rwa [destinations_congr home]
      · rwa [stagingPlaces_congr home]
      · simpa only [Disk.place_congr home] using order
      · intro c later
        rw [Disk.place_congr home]
        apply first.confined.file _ (staged c (by simp [later]))
        simp only [List.mem_cons, List.not_mem_nil, or_false, not_or]
        refine ⟨fun same => otherStaged ?_, fun same => untouched c later same.symm⟩
        exact List.mem_map.mpr ⟨c, later, same⟩

end Moving

end PixelTables.Publishing
