import PixelTables.Discovery
import PixelTables.Proofs.Path.Joined
import PixelTables.Proofs.Profile.Checked

namespace PixelTables

namespace Path

theorem Same.join {a b : Path} (same : a.Same b) (p : Path) : (a.join p).Same (b.join p) := by
  cases absolute : p.isAbsolute with
  | true =>
    rw [join_absolute absolute, join_absolute absolute]
    exact .refl p
  | false =>
    obtain ⟨anchors, moves⟩ := (same_iff a b).mp same
    by_cases empty : a = ⟨""⟩
    · subst empty
      rw [(same_empty_iff b).mp same.symm]
      exact .refl _
    · have filled : ∀ q : Path, q ≠ ⟨""⟩ → q.text ≠ "" := fun q other text =>
        other (congrArg Path.mk text)
      have other : b ≠ ⟨""⟩ := fun bare => empty ((same_empty_iff a).mp (bare ▸ same))
      rw [same_iff, anchor_join absolute (filled a empty), anchor_join absolute (filled b other),
        moves_join absolute, moves_join absolute, anchors, moves]
      exact ⟨rfl, rfl⟩

theorem parent_join {name : String} (free : '/' ∉ name.toList) (moving : isIdle name = false)
    (base : Path) : ∃ up, (base.join ⟨name⟩).parent = some up ∧ up.Same base := by
  have relative := join_name_relative free
  have named : (Path.mk name).moves = [name] := by simp [moves, pieces_of_free free, moving]
  have moves : (base.join ⟨name⟩).moves = base.moves ++ [name] := by
    rw [moves_join relative, named]
  obtain ⟨up, parent, anchor, before⟩ := parent_of_moves moves
  refine ⟨up, parent, (same_iff up base).mpr ⟨anchor.trans ?_, before⟩⟩
  by_cases empty : base.text = ""
  · obtain ⟨text⟩ := base
    subst empty
    rw [join_empty rfl]
    apply anchor_eq_of_iff
    · rw [anchor_root_iff, anchor_root_iff, relative]
      decide +kernel
    · rw [anchor_dot_iff, anchor_dot_iff, pieces_of_free free, pieces_empty]
      have other : name ≠ "." := by
        rintro rfl
        cases moving
      simp [other]
  · exact anchor_join relative empty

end Path

theorem Manifest.root_of_parse {source : String} {root : Path} {c : Config}
    (decoded : parse? source root = some c) : c.root = root := by
  obtain ⟨entries, _, decoded⟩ := Option.bind_eq_some_iff.mp decoded
  simp only [config, Option.bind_eq_bind, Option.bind_eq_some_iff] at decoded
  obtain ⟨_, _, _, _, _, _, made⟩ := decoded
  rw [← Option.some.inj made]

namespace Config

inductive Loaded (d : Disk) (p : Path) : Except Failure Config → Prop
  | unreadable (none : d.readText p = none) : Loaded d p (.error (.config (some p) .unreadable))
  | malformed {source : String} (text : d.readText p = some source)
      (none : Manifest.parse? source (p.parent.getD ⟨"."⟩) = none) :
      Loaded d p (.error (.config (some p) .malformed))
  | faulty {source : String} {c : Config} {fault : Fault} (text : d.readText p = some source)
      (decoded : Manifest.parse? source (p.parent.getD ⟨"."⟩) = some c)
      (broken : c.check = .error (.fault fault)) :
      Loaded d p (.error (.config (some p) (.fault fault)))
  | valid {source : String} {c : Config} (text : d.readText p = some source)
      (decoded : Manifest.parse? source (p.parent.getD ⟨"."⟩) = some c) (valid : c.check = .ok ()) :
      Loaded d p (.ok c)

theorem loaded (d : Disk) (p : Path) : Loaded d p (load d p) := by
  rw [load]
  cases text : d.readText p with
  | none => exact .unreadable text
  | some source =>
    simp only [Manifest.read]
    cases decoded : Manifest.parse? source (p.parent.getD ⟨"."⟩) with
    | none => exact .malformed text decoded
    | some c =>
      cases checked : c.check with
      | ok u =>
        simp only [checked]
        exact .valid text decoded checked
      | error failure =>
        obtain ⟨fault, rfl⟩ := NamesFault.config c failure checked
        simp only [checked]
        exact .faulty text decoded checked

namespace Loaded

variable {d : Disk} {p : Path}

theorem names_file {failure : Failure} (course : Loaded d p (.error failure)) :
    ∃ problem, failure = .config (some p) problem := by
  cases course with
  | unreadable | malformed | faulty => exact ⟨_, rfl⟩

theorem of_manifest {c : Config} (course : Loaded d p (.ok c)) :
    ∃ source, d.readText p = some source ∧ Manifest.parse? source c.root = some c ∧
      c.root = p.parent.getD ⟨"."⟩ ∧ c.check = .ok () := by
  cases course with
  | @valid source _ text decoded valid =>
    have root := Manifest.root_of_parse decoded
    exact ⟨source, text, root ▸ decoded, root, valid⟩

end Loaded

theorem discover_of_file {d : Disk} {dir : Path}
    (present : d.isFile (dir.join ⟨manifestName⟩) = true) :
    discover d dir =
      (load d (dir.join ⟨manifestName⟩), [usingManifest (dir.join ⟨manifestName⟩)]) :=
  if_pos present

theorem discover_of_no_file {d : Disk} {dir : Path}
    (absent : d.isFile (dir.join ⟨manifestName⟩) = false) :
    discover d dir = (.ok { standard with root := dir }, [usingStandard dir]) :=
  if_neg (by simp [absent])

theorem usingManifest_ne_usingStandard (p dir : Path) : usingManifest p ≠ usingStandard dir := by
  intro same
  have texts := congrArg (fun note : Note => note.text.toList.head?) same
  simp [usingManifest, usingStandard, Note.config, ToString.toString] at texts

/-- The configuration of a directory takes its paths from there. It is built in exactly if there is no
    manifest, and is otherwise what the manifest says; all that can go wrong is told of the
    manifest. -/
theorem discover_resolves (d : Disk) (dir : Path) :
    (∀ c, (discover d dir).1 = .ok c → ∀ p, (c.resolve p).Same (dir.join p)) ∧
      (discover d dir = (.ok { standard with root := dir }, [usingStandard dir]) ↔
        d.isFile (dir.join ⟨"cellbake.toml"⟩) = false) ∧
      (d.isFile (dir.join ⟨"cellbake.toml"⟩) = true → ∀ c, (discover d dir).1 = .ok c →
        ∃ source, d.readText (dir.join ⟨"cellbake.toml"⟩) = some source ∧
          Manifest.parse? source c.root = some c ∧ c.check = .ok ()) ∧
      ∀ failure, (discover d dir).1 = .error failure →
        ∃ problem, failure = .config (some (dir.join ⟨"cellbake.toml"⟩)) problem := by
  have free : '/' ∉ manifestName.toList := by decide
  obtain ⟨up, parent, same⟩ := Path.parent_join free (by decide) dir
  cases present : d.isFile (dir.join ⟨manifestName⟩) with
  | false =>
    rw [discover_of_no_file present]
    refine ⟨?_, iff_of_true rfl present, fun file => ?_, fun failure failed => ?_⟩
    · rintro _ ⟨⟩ p
      exact .refl _
    · cases present.symm.trans file
    · cases failed
  | true =>
    have course := loaded d (dir.join ⟨manifestName⟩)
    rw [discover_of_file present]
    generalize load d (dir.join ⟨manifestName⟩) = result at course ⊢
    have noted : ¬ (result, [usingManifest (dir.join ⟨manifestName⟩)]) =
        (.ok { standard with root := dir }, [usingStandard dir]) := fun both =>
      usingManifest_ne_usingStandard _ _ (List.cons.inj (Prod.mk.inj both).2).1
    refine ⟨?_, iff_of_false noted (by rw [← manifestName, present]; simp), ?_, ?_⟩
    · intro c found p
      subst found
      obtain ⟨_, _, _, root, _⟩ := course.of_manifest
      rw [resolve, root, parent]
      exact same.join p
    · intro _ c found
      subst found
      obtain ⟨source, text, decoded, _, valid⟩ := course.of_manifest
      exact ⟨source, text, decoded, valid⟩
    · intro failure failed
      subst failed
      exact course.names_file

def withManifests : Disk where
  home := ["work"]
  entries := [(["work"], .directory), (["work", "d"], .directory), (["work", "e"], .directory),
    (["work", "d", "cellbake.toml"], .file ⟨#[]⟩),
    (["work", "e", "cellbake.toml"], .file "root = 1".toUTF8)]

theorem discover_resolves_respelled :
    (∃ c, (discover withManifests ⟨"d/."⟩).1 = .ok c ∧ c.root = ⟨"d"⟩ ∧
      (∀ p, (c.resolve p).Same ((Path.mk "d/.").join p)) ∧
      ∃ source, withManifests.readText ((Path.mk "d/.").join ⟨"cellbake.toml"⟩) = some source ∧
        Manifest.parse? source c.root = some c ∧ c.check = .ok ()) ∧
      ∃ failure, (discover withManifests ⟨"e"⟩).1 = .error failure ∧
        ∃ problem, failure = .config (some ((Path.mk "e").join ⟨"cellbake.toml"⟩)) problem := by
  have read : (discover withManifests ⟨"d/."⟩).1.toOption.map (·.root) = some ⟨"d"⟩ := by
    decide +kernel
  have spoilt : (discover withManifests ⟨"e"⟩).1.toOption.map (·.root) = none := by decide +kernel
  obtain ⟨c, some, root⟩ := Option.map_eq_some_iff.mp read
  have found := toOption_eq_some.mp some
  obtain ⟨resolves, _, manifest, _⟩ := discover_resolves withManifests ⟨"d/."⟩
  refine ⟨⟨c, found, root, resolves c found, manifest (by decide +kernel) c found⟩, ?_⟩
  cases failed : (discover withManifests ⟨"e"⟩).1 with
  | ok c => simp [failed, Except.toOption] at spoilt
  | error failure =>
    exact ⟨failure, rfl, (discover_resolves withManifests ⟨"e"⟩).2.2.2 failure failed⟩

end Config

end PixelTables
