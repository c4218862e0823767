import PixelTables.Proofs.Disk.Operations

namespace PixelTables.Publishing

def destinations (d : Disk) (as : List Artifact) : List Location :=
  as.map fun a => d.place a.path

def stagingPlaces (d : Disk) (as : List Artifact) : List Location :=
  as.map fun a => d.place a.path.staging

theorem destinations_congr {d e : Disk} (home : e.home = d.home) (as : List Artifact) :
    destinations e as = destinations d as := by
  simp only [destinations, Disk.place_congr home]

theorem stagingPlaces_congr {d e : Disk} (home : e.home = d.home) (as : List Artifact) :
    stagingPlaces e as = stagingPlaces d as := by
  simp only [stagingPlaces, Disk.place_congr home]

theorem mem_destinations {d : Disk} {as : List Artifact} {a : Artifact} (member : a ∈ as) :
    d.place a.path ∈ destinations d as := List.mem_map.mpr ⟨a, member, rfl⟩

theorem mem_stagingPlaces {d : Disk} {as : List Artifact} {a : Artifact} (member : a ∈ as) :
    d.place a.path.staging ∈ stagingPlaces d as := List.mem_map.mpr ⟨a, member, rfl⟩

theorem makeRoom_cases (d : Disk) (a : Artifact) :
    ∃ made, Disk.Confined [] d made ∧
      (makeRoom d a = (made, .ok ()) ∨ ∃ dir, makeRoom d a = (made, .error (.write dir))) := by
  simp only [makeRoom]
  cases directory? a.path with
  | none => exact ⟨d, .refl _ _, .inl rfl⟩
  | some dir =>
    have change := d.makeDirectories_confined dir
    cases run : d.makeDirectories dir with
    | mk made result =>
      rw [run] at change
      refine ⟨made, change, ?_⟩
      cases result with
      | ok _ => simp [run]
      | error _ => simp [run]

theorem staged_confined {a : Artifact} {d made wrote : Disk} {result : Except Trouble Unit}
    (room : Disk.Confined [] d made)
    (written : made.writeFile a.path.staging a.bytes = (wrote, result)) :
    Disk.FilesStay d wrote ∧ Disk.Confined [d.place a.path.staging] d wrote := by
  have change := Disk.writeFile_confined written
  rw [room.place] at change
  exact ⟨room.filesStay.trans (Disk.writeFile_filesStay written), room.trans change⟩

/-- Everything that one round of the staging loop can do. Where it fails, what it changed is named:
    the staging file was written in part, or it was not reached. -/
theorem stage_cons {a : Artifact} {rest : List Artifact} {d e : Disk} {staged : List Path}
    {result : Except Failure Unit} (run : stage (a :: rest) d = (e, staged, result)) :
    (∃ done, (done = [] ∨ done = [a]) ∧ staged = done.map (·.path.staging) ∧
        Disk.FilesStay d e ∧ Disk.Confined (stagingPlaces d done) d e ∧
        ∃ p, result = .error (.write p)) ∨
      ∃ made wrote more, makeRoom d a = (made, .ok ()) ∧ Disk.Confined [] d made ∧
        made.writeFile a.path.staging a.bytes = (wrote, .ok ()) ∧
        stage rest wrote = (e, more, result) ∧ staged = a.path.staging :: more := by
  obtain ⟨made, change, fine | ⟨dir, refused⟩⟩ := makeRoom_cases d a
  · simp only [stage, fine] at run
    rcases written : made.writeFile a.path.staging a.bytes with ⟨wrote, outcome⟩
    cases outcome with
    | error why =>
      simp only [written, Prod.mk.injEq] at run
      obtain ⟨rfl, rfl, rfl⟩ := run
      obtain ⟨stay, part⟩ := staged_confined change written
      exact .inl ⟨[a], .inr rfl, rfl, stay, part, _, rfl⟩
    | ok _ =>
      rcases later : stage rest wrote with ⟨last, more, final⟩
      simp only [written, later, Prod.mk.injEq] at run
      obtain ⟨rfl, rfl, rfl⟩ := run
      exact .inr ⟨made, wrote, more, fine, change, written, later, rfl⟩
  · simp only [stage, refused, Prod.mk.injEq] at run
    obtain ⟨rfl, rfl, rfl⟩ := run
    exact .inl ⟨[], .inl rfl, rfl, change.filesStay, change, dir, rfl⟩

/-- Staging tells where it stopped: no staging place beyond the ones it names has changed, and
    nothing else has, directories apart. -/
theorem stage_confined {as : List Artifact} {d e : Disk} {staged : List Path}
    {result : Except Failure Unit} (run : stage as d = (e, staged, result)) :
    Disk.FilesStay d e ∧ ∃ done rest, as = done ++ rest ∧
      staged = done.map (·.path.staging) ∧ Disk.Confined (stagingPlaces d done) d e ∧
      (result = .ok () ∧ rest = [] ∨ ∃ p, result = .error (.write p)) := by
  induction as generalizing d staged with
  | nil =>
    simp only [stage, Prod.mk.injEq] at run
    obtain ⟨rfl, rfl, rfl⟩ := run
    exact ⟨(Disk.Confined.refl [] d).filesStay, [], [], rfl, rfl, .refl _ _, .inl ⟨rfl, rfl⟩⟩
  | cons a as ih =>
    rcases stage_cons run with
      ⟨done, named, names, stay, change, failed⟩ |
      ⟨made, wrote, more, _, room, written, later, rfl⟩
    · refine ⟨stay, ?_⟩
      rcases named with rfl | rfl
      · exact ⟨[], a :: as, rfl, names, change, .inr failed⟩
      · exact ⟨[a], as, rfl, names, change, .inr failed⟩
    · obtain ⟨first, step⟩ := staged_confined room written
      obtain ⟨stay, done, rest, rfl, rfl, tail, outcome⟩ := ih later
      refine ⟨first.trans stay, a :: done, rest, rfl, rfl, ?_, outcome⟩
      rw [stagingPlaces_congr step.home] at tail
      exact step.trans tail

theorem stage_complete {as : List Artifact} {d e : Disk} {staged : List Path}
    (run : stage as d = (e, staged, .ok ())) :
    Disk.FilesStay d e ∧ Disk.Confined (stagingPlaces d as) d e := by
  obtain ⟨stay, done, rest, rfl, _, change, ⟨_, rfl⟩ | ⟨p, failed⟩⟩ := stage_confined run
  · rw [List.append_nil]
    exact ⟨stay, change⟩
  · cases failed

/-- When everything is staged, each artifact was written where nothing but directories and staging
    files had changed, in the room that was made for it, and nothing else has changed since. -/
theorem stage_each {as : List Artifact} {d e : Disk} {staged : List Path}
    (run : stage as d = (e, staged, .ok ())) : ∀ a ∈ as, ∃ near made wrote,
      makeRoom near a = (made, .ok ()) ∧ Disk.Confined (stagingPlaces d as) d made ∧
        made.writeFile a.path.staging a.bytes = (wrote, .ok ()) ∧
        Disk.Confined (stagingPlaces d as) wrote e := by
  induction as generalizing d staged with
  | nil => simp
  | cons a as ih =>
    rcases stage_cons run with
      ⟨_, _, _, _, _, p, failed⟩ | ⟨made, wrote, more, room, change, written, later, rfl⟩
    · cases failed
    · obtain ⟨_, step⟩ := staged_confined change written
      have tail := (stage_complete later).2
      have places := stagingPlaces_congr step.home as
      intro b member
      rcases List.mem_cons.mp member with rfl | member
      · rw [places] at tail
        exact ⟨d, made, wrote, room, change.mono (by simp), written,
          tail.mono (List.subset_cons_self _ _)⟩
      · obtain ⟨near, own, after, made, before, written, tail⟩ := ih later b member
        rw [places] at before tail
        exact ⟨near, own, after, made, step.trans before, written,
          tail.mono (List.subset_cons_self _ _)⟩

theorem stage_located {as : List Artifact} {d e : Disk} {staged : List Path}
    (run : stage as d = (e, staged, .ok ())) :
    ∀ a ∈ as, e.locate a.path.staging = .ok (e.place a.path.staging) ∧
      Disk.endsInSlash a.path.staging = false := by
  intro a member
  obtain ⟨_, made, wrote, _, _, written, tail⟩ := stage_each run a member
  obtain ⟨here, _⟩ := Disk.writeFile_eq_ok written
  have change := Disk.writeFile_confined written
  rw [tail.locate (change.locate here.located), tail.place, change.place]
  exact ⟨rfl, here.plain⟩

theorem stage_holds {as : List Artifact} {d e : Disk} {staged : List Path}
    (run : stage as d = (e, staged, .ok ())) (distinct : (stagingPlaces d as).Nodup) :
    ∀ a ∈ as, e.lookup (d.place a.path.staging) = some (.file a.bytes) := by
  induction as generalizing d staged with
  | nil => simp
  | cons a as ih =>
    rcases stage_cons run with
      ⟨_, _, _, _, _, p, failed⟩ | ⟨made, wrote, more, _, room, written, later, rfl⟩
    · cases failed
    · obtain ⟨fresh, distinct⟩ := List.nodup_cons.mp distinct
      obtain ⟨_, step⟩ := staged_confined room written
      have held := Disk.writeFile_lookup written
      rw [room.place] at held
      intro b member
      rcases List.mem_cons.mp member with rfl | member
      · -- what is staged later is at other places
        obtain ⟨_, done, rest, rfl, _, tail, _⟩ := stage_confined later
        apply tail.file _ held
        intro taken
        rw [stagingPlaces_congr step.home] at taken
        exact fresh (by simp only [List.map_append, List.mem_append]; exact .inl taken)
      · rw [← step.place]
        exact ih later (by rw [stagingPlaces_congr step.home]; exact distinct) b member

end PixelTables.Publishing
