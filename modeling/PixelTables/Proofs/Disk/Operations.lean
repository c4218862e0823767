import PixelTables.Proofs.Disk.StagingPlaces

namespace PixelTables.Disk

theorem ne_root_of_lookup {d : Disk} {q : Location} (other : d.lookup q ≠ some .directory) :
    q ≠ [] := by
  rintro rfl
  exact other (lookup_root d)

/-- From one disk to the other, directories were added and the given places may have changed. -/
structure Confined (places : List Location) (before after : Disk) : Prop where
  home : after.home = before.home
  faults : after.faults = before.faults
  directories : ∀ q, before.lookup q = some .directory → after.lookup q = some .directory
  elsewhere : ∀ q, q ∉ places → after.lookup q = before.lookup q ∨
    before.lookup q = none ∧ after.lookup q = some .directory

namespace Confined

variable {before middle after : Disk} {places more : List Location}

theorem refl (places : List Location) (d : Disk) : Confined places d d :=
  ⟨rfl, rfl, fun _ here => here, fun _ _ => .inl rfl⟩

theorem mono (subset : places ⊆ more) (change : Confined places before after) :
    Confined more before after :=
  ⟨change.home, change.faults, change.directories, fun q outside =>
    change.elsewhere q fun inside => outside (subset inside)⟩

theorem trans (first : Confined places before middle) (second : Confined more middle after) :
    Confined (places ++ more) before after := by
  refine ⟨second.home.trans first.home, second.faults.trans first.faults,
    fun q here => second.directories q (first.directories q here), ?_⟩
  intro q outside
  simp only [List.mem_append, not_or] at outside
  rcases first.elsewhere q outside.1 with same | ⟨none, made⟩
  · rw [← same]
    exact second.elsewhere q outside.2
  · exact .inr ⟨none, second.directories q made⟩

theorem place (change : Confined places before after) (p : Path) :
    after.place p = before.place p := place_congr change.home p

theorem file {q : Location} {bytes : ByteArray} (change : Confined places before after)
    (outside : q ∉ places) (held : before.lookup q = some (.file bytes)) :
    after.lookup q = some (.file bytes) := by
  rcases change.elsewhere q outside with same | ⟨none, _⟩
  · rw [same, held]
  · simp [held] at none

theorem fileAt {q : Location} (change : Confined places before after) (outside : q ∉ places) :
    after.fileAt q = before.fileAt q := by
  rcases change.elsewhere q outside with same | ⟨none, made⟩
  · exact fileAt_congr same
  · simp only [Disk.fileAt, none, made]

theorem locate {p : Path} {q : Location} (change : Confined places before after)
    (located : before.locate p = .ok q) : after.locate p = .ok q :=
  locate_mono change.home change.directories located

end Confined

def FilesStay (before after : Disk) : Prop :=
  ∀ q bytes, before.lookup q = some (.file bytes) → ∃ new, after.lookup q = some (.file new)

theorem FilesStay.trans {before middle after : Disk} (first : FilesStay before middle)
    (second : FilesStay middle after) : FilesStay before after := by
  intro q bytes held
  obtain ⟨new, held⟩ := first q bytes held
  exact second q new held

theorem Confined.filesStay {before after : Disk} (change : Confined [] before after) :
    FilesStay before after :=
  fun _ bytes held => ⟨bytes, change.file (by simp) held⟩

def NoDirectoryMade (before after : Disk) : Prop :=
  ∀ q, after.lookup q = some .directory → before.lookup q = some .directory

theorem NoDirectoryMade.trans {before middle after : Disk} (first : NoDirectoryMade before middle)
    (second : NoDirectoryMade middle after) : NoDirectoryMade before after :=
  fun q here => first q (second q here)

theorem readBytes_eq_ok {d : Disk} {p : Path} {bytes : ByteArray} :
    d.readBytes p = .ok bytes ↔ d.locate p = .ok (d.place p) ∧
      d.lookup (d.place p) = some (.file bytes) ∧ endsInSlash p = false := by
  simp only [readBytes, find?, Bind.bind, Except.bind]
  rcases d.locate_cases p with located | ⟨why, located⟩
  · cases held : d.lookup (d.place p) with
    | none => simp [located, held]
    | some entry =>
      cases entry with
      | directory => simp [located, held]
      | file old => cases slash : endsInSlash p <;> simp [located, held]
  · simp [located]

def reading (d : Disk) (p : Path) : Option ByteArray := (d.readBytes p).toOption

theorem reading_eq_some {d : Disk} {p : Path} {bytes : ByteArray} :
    d.reading p = some bytes ↔ d.readBytes p = .ok bytes := toOption_eq_some

def ReadsAlike (paths : List Path) (before after : Disk) : Prop :=
  ∀ p ∈ paths, after.reading p = before.reading p

theorem ReadsAlike.mono {paths some : List Path} {before after : Disk} (subset : some ⊆ paths)
    (alike : ReadsAlike paths before after) : ReadsAlike some before after :=
  fun p member => alike p (subset member)

theorem reading_of_refused {d : Disk} {p : Path} {why : Trouble}
    (refused : d.locate p = .error why) : d.reading p = none := by
  simp [reading, readBytes, find?, refused, Bind.bind, Except.bind, Except.toOption]

theorem Confined.readBytes {before after : Disk} {places : List Location} {p : Path}
    {bytes : ByteArray} (change : Confined places before after) (outside : before.place p ∉ places)
    (read : before.readBytes p = .ok bytes) : after.readBytes p = .ok bytes := by
  obtain ⟨located, held, plain⟩ := readBytes_eq_ok.mp read
  rw [readBytes_eq_ok, change.place]
  exact ⟨change.locate located, change.file outside held, plain⟩

theorem isFile_iff {d : Disk} {p : Path} :
    d.isFile p = true ↔ ∃ bytes, d.readBytes p = .ok bytes := by
  simp only [isFile, readBytes, Bind.bind, Except.bind]
  cases d.find? p with
  | error why => simp
  | ok entry => cases entry <;> simp

theorem isFile_eq_reading (d : Disk) (p : Path) : d.isFile p = (d.reading p).isSome := by
  rw [Bool.eq_iff_iff, isFile_iff, Option.isSome_iff_exists]
  simp only [reading_eq_some]

theorem isFile_eq_false_of_fileAt {d : Disk} {p : Path} (gone : d.fileAt (d.place p) = none) :
    d.isFile p = false := by
  rw [Bool.eq_false_iff, ne_eq, isFile_iff]
  rintro ⟨bytes, read⟩
  exact fileAt_eq_none.mp gone bytes (readBytes_eq_ok.mp read).2.1

theorem makeDirectory_eq_ok {d e : Disk} {p : Path} (made : d.makeDirectory p = .ok e) :
    d.lookup (d.place p) = none ∧ e = d.insert (d.place p) .directory := by
  simp only [makeDirectory, Bind.bind, Except.bind] at made
  rcases d.locate_cases p with located | ⟨why, located⟩
  · cases held : d.lookup (d.place p) with
    | none => exact ⟨rfl, by simpa [located, held, eq_comm] using made⟩
    | some entry => simp [located, held] at made
  · simp [located] at made

theorem makeDirectory_confined {d e : Disk} {p : Path} (made : d.makeDirectory p = .ok e) :
    Confined [] d e := by
  obtain ⟨free, rfl⟩ := makeDirectory_eq_ok made
  have below : d.place p ≠ [] := ne_root_of_lookup (d := d) (by simp [free])
  refine ⟨rfl, rfl, ?_, ?_⟩
  · intro q here
    rw [lookup_insert below]
    split <;> simp_all
  · intro q _
    rw [lookup_insert below]
    by_cases same : q = d.place p
    · exact .inr ⟨by rw [same, free], by simp [same]⟩
    · exact .inl (by simp [same])

theorem makeChain_confined (chain : List Path) (d : Disk) : Confined [] d (d.makeChain chain).1 := by
  induction chain generalizing d with
  | nil => exact .refl _ _
  | cons p up ih =>
    simp only [makeChain]
    by_cases empty : p.text = ""
    · simp only [empty, ↓reduceIte]
      exact .refl _ _
    · simp only [empty, ↓reduceIte]
      cases made : d.makeDirectory p with
      | ok e => exact makeDirectory_confined made
      | error why =>
        have above := ih d
        cases why with
        | notFound =>
          cases chained : d.makeChain up with
          | mk e result =>
            simp only [chained] at above
            cases result with
            | error why => exact above
            | ok _ =>
              cases again : e.makeDirectory p with
              | ok f =>
                simp only [again]
                exact above.trans (makeDirectory_confined again)
              | error why =>
                simp only [again]
                exact above
        | notDirectory | isDirectory | occupied | badName | failed => exact .refl _ _

theorem makeDirectories_confined (d : Disk) (p : Path) : Confined [] d (d.makeDirectories p).1 :=
  makeChain_confined _ d

theorem insertFile_confined {d : Disk} {q : Location} (bytes : ByteArray)
    (free : d.lookup q ≠ some .directory) : Confined [q] d (d.insert q (.file bytes)) := by
  have below := ne_root_of_lookup free
  refine ⟨rfl, rfl, ?_, ?_⟩
  · intro r here
    rw [lookup_insert below]
    split
    · simp_all
    · exact here
  · intro r outside
    rw [lookup_insert below]
    simp only [List.mem_singleton] at outside
    simp [outside]

theorem erase_confined {d : Disk} {q : Location} {bytes : ByteArray}
    (held : d.lookup q = some (.file bytes)) : Confined [q] d (d.erase q) := by
  have below : q ≠ [] := ne_root_of_lookup (d := d) (by simp [held])
  refine ⟨rfl, rfl, ?_, ?_⟩
  · intro r here
    rw [lookup_erase below]
    split
    · simp_all
    · exact here
  · intro r outside
    rw [lookup_erase below]
    simp only [List.mem_singleton] at outside
    simp [outside]

/-- Nothing but a fault keeps a file from being put at the path. -/
structure Writable (d : Disk) (p : Path) : Prop where
  located : d.locate p = .ok (d.place p)
  free : d.lookup (d.place p) ≠ some .directory
  plain : endsInSlash p = false

theorem fileSite_eq_ok {d : Disk} {p : Path} {q : Location} :
    d.fileSite p = .ok q ↔ q = d.place p ∧ d.Writable p := by
  simp only [fileSite, Bind.bind, Except.bind]
  constructor
  · intro site
    cases slash : endsInSlash p with
    | true => simp [slash] at site
    | false =>
      rcases d.locate_cases p with located | ⟨why, located⟩
      · simp only [slash, located, Bool.false_eq_true, ↓reduceIte] at site
        split at site
        · cases site
        · rename_i free
          exact ⟨(Except.ok.inj site).symm, located, free, slash⟩
      · simp [slash, located] at site
  · rintro ⟨rfl, here⟩
    simp only [here.plain, here.located, Bool.false_eq_true, ↓reduceIte]
    split
    · exact absurd ‹_› here.free
    · rfl

def written (d : Disk) (q : Location) (bytes : ByteArray) : ByteArray :=
  match d.faults q with
  | none => bytes
  | some count => bytes.extract 0 count

section Write

variable {d e : Disk} {p : Path} {bytes : ByteArray} {result : Except Trouble Unit}

theorem writeFile_cases (wrote : d.writeFile p bytes = (e, result)) :
    (e = d ∧ ∃ why, result = .error why) ∨
      d.Writable p ∧ e = d.insert (d.place p) (.file (d.written (d.place p) bytes)) ∧
        (result = .ok () ↔ d.faults (d.place p) = none) := by
  simp only [writeFile] at wrote
  cases site : d.fileSite p with
  | error why =>
    simp only [site, Prod.mk.injEq] at wrote
    obtain ⟨rfl, rfl⟩ := wrote
    exact .inl ⟨rfl, why, rfl⟩
  | ok q =>
    obtain ⟨rfl, here⟩ := fileSite_eq_ok.mp site
    refine .inr ⟨here, ?_⟩
    rw [written]
    cases fault : d.faults (d.place p) with
    | none | some _ =>
      simp only [site, fault, Prod.mk.injEq] at wrote
      obtain ⟨rfl, rfl⟩ := wrote
      simp

theorem writeFile_confined (wrote : d.writeFile p bytes = (e, result)) :
    Confined [d.place p] d e := by
  rcases writeFile_cases wrote with ⟨rfl, _⟩ | ⟨here, rfl, _⟩
  · exact .refl _ _
  · exact insertFile_confined _ here.free

theorem writeFile_filesStay (wrote : d.writeFile p bytes = (e, result)) : FilesStay d e := by
  intro q old held
  by_cases same : q = d.place p
  · rcases writeFile_cases wrote with ⟨rfl, _⟩ | ⟨here, rfl, _⟩
    · exact ⟨old, held⟩
    · exact ⟨_, by rw [lookup_insert (ne_root_of_lookup here.free), if_pos same]⟩
  · exact ⟨old, (writeFile_confined wrote).file (by simpa using same) held⟩

theorem writeFile_directories (wrote : d.writeFile p bytes = (e, result)) :
    NoDirectoryMade d e := by
  intro q made
  rcases writeFile_cases wrote with ⟨rfl, _⟩ | ⟨here, rfl, _⟩
  · exact made
  · rw [lookup_insert (ne_root_of_lookup here.free)] at made
    split at made
    · cases made
    · exact made

theorem writeFile_eq_ok (wrote : d.writeFile p bytes = (e, .ok ())) :
    d.Writable p ∧ d.faults (d.place p) = none ∧ e = d.insert (d.place p) (.file bytes) := by
  rcases writeFile_cases wrote with ⟨_, why, failed⟩ | ⟨here, rfl, fine⟩
  · cases failed
  · have sound := fine.mp rfl
    exact ⟨here, sound, by simp only [written, sound]⟩

theorem writeFile_lookup (wrote : d.writeFile p bytes = (e, .ok ())) :
    e.lookup (d.place p) = some (.file bytes) := by
  obtain ⟨here, _, rfl⟩ := writeFile_eq_ok wrote
  simp [lookup_insert (ne_root_of_lookup here.free)]

end Write

theorem moveFile_eq_ok {d e : Disk} {source target : Path} (moved : d.moveFile source target = .ok e) :
    ∃ bytes, d.lookup (d.place source) = some (.file bytes) ∧ d.Writable target ∧
      e = (d.erase (d.place source)).insert (d.place target) (.file bytes) := by
  simp only [moveFile, Bind.bind, Except.bind] at moved
  cases read : d.readBytes source with
  | error why => simp [read] at moved
  | ok bytes =>
    obtain ⟨located, held, _⟩ := readBytes_eq_ok.mp read
    refine ⟨bytes, held, ?_⟩
    rcases d.locate_cases target with arrived | ⟨why, arrived⟩
    · simp only [read, located, arrived] at moved
      split at moved
      · cases moved
      · rename_i free
        split at moved
        · cases moved
        · rename_i plain
          exact ⟨⟨arrived, free, by simpa using plain⟩, (Except.ok.inj moved).symm⟩
    · simp [read, located, arrived] at moved

structure Moved (source target : Path) (bytes : ByteArray) (before after : Disk) : Prop where
  held : before.lookup (before.place source) = some (.file bytes)
  free : before.lookup (before.place target) ≠ some .directory
  left : after.lookup (before.place source) = none
  read : after.readBytes target = .ok bytes
  confined : Confined [before.place source, before.place target] before after
  directories : NoDirectoryMade before after

theorem moveFile_moved {d e : Disk} {source target : Path} (moved : d.moveFile source target = .ok e)
    (apart : d.place target ≠ d.place source) : ∃ bytes, Moved source target bytes d e := by
  obtain ⟨bytes, held, here, rfl⟩ := moveFile_eq_ok moved
  have sourceBelow : d.place source ≠ [] := ne_root_of_lookup (d := d) (by simp [held])
  have targetBelow := ne_root_of_lookup here.free
  have still : (d.erase (d.place source)).lookup (d.place target) ≠ some .directory := by
    simpa [lookup_erase sourceBelow, apart] using here.free
  have change := (erase_confined held).trans (insertFile_confined bytes still)
  refine ⟨bytes, held, here.free, ?_, ?_, change, ?_⟩
  · simp [lookup_insert targetBelow, lookup_erase sourceBelow, Ne.symm apart]
  · refine readBytes_eq_ok.mpr ⟨?_, ?_, here.plain⟩
    · rw [change.place]
      exact change.locate here.located
    · rw [change.place]
      simp [lookup_insert targetBelow]
  · intro q made
    rw [lookup_insert targetBelow, lookup_erase sourceBelow] at made
    split at made
    · cases made
    · split at made
      · cases made
      · exact made

theorem Moved.absent {source target : Path} {bytes : ByteArray} {before after : Disk} {q : Location}
    (moved : Moved source target bytes before after) (other : q ≠ before.place target)
    (absent : before.lookup q = none) : after.lookup q = none := by
  by_cases same : q = before.place source
  · rw [same]
    exact moved.left
  · rcases moved.confined.elsewhere q (by simp [same, other]) with kept | ⟨_, made⟩
    · rw [kept, absent]
    · have early := moved.directories q made
      simp [absent] at early

structure Removed (places : List Location) (before after : Disk) : Prop where
  confined : Confined places before after
  fewer : ∀ q entry, after.lookup q = some entry → before.lookup q = some entry

theorem Removed.refl (places : List Location) (d : Disk) : Removed places d d :=
  ⟨.refl _ _, fun _ _ here => here⟩

theorem Removed.trans {before middle after : Disk} {places more : List Location}
    (first : Removed places before middle) (second : Removed more middle after) :
    Removed (places ++ more) before after :=
  ⟨first.confined.trans second.confined,
    fun q entry here => first.fewer q entry (second.fewer q entry here)⟩

theorem Removed.isFile {before after : Disk} {places : List Location} {p : Path}
    (change : Removed places before after) (none : before.isFile p = false) :
    after.isFile p = false := by
  rw [Bool.eq_false_iff, ne_eq, isFile_iff] at none ⊢
  rintro ⟨bytes, read⟩
  obtain ⟨located, held, plain⟩ := readBytes_eq_ok.mp read
  rw [change.confined.place] at located held
  have back : before.locate p = .ok (before.place p) :=
    locate_mono change.confined.home.symm (fun q => change.fewer q _) located
  exact none ⟨bytes, readBytes_eq_ok.mpr ⟨back, change.fewer _ _ held, plain⟩⟩

theorem removeFile_eq_ok {d e : Disk} {p : Path} (removed : d.removeFile p = .ok e) :
    (∃ bytes, d.lookup (d.place p) = some (.file bytes)) ∧ e = d.erase (d.place p) := by
  simp only [removeFile, Bind.bind, Except.bind] at removed
  rcases d.locate_cases p with located | ⟨why, located⟩
  · simp only [located] at removed
    split at removed
    · cases removed
    · cases removed
    · rename_i bytes held
      split at removed
      · cases removed
      · exact ⟨⟨bytes, held⟩, (Except.ok.inj removed).symm⟩
  · simp [located] at removed

theorem removeFile_removed {d e : Disk} {p : Path} (removed : d.removeFile p = .ok e) :
    Removed [d.place p] d e ∧ e.isFile p = false := by
  obtain ⟨⟨bytes, held⟩, rfl⟩ := removeFile_eq_ok removed
  have below : d.place p ≠ [] := ne_root_of_lookup (d := d) (by simp [held])
  have change := erase_confined held
  refine ⟨⟨change, ?_⟩, ?_⟩
  · intro q entry here
    rw [lookup_erase below] at here
    split at here
    · cases here
    · exact here
  · apply isFile_eq_false_of_fileAt
    rw [change.place]
    simp [fileAt, lookup_erase below]

theorem isFile_of_removeFile_error {d : Disk} {p : Path} {why : Trouble}
    (refused : d.removeFile p = .error why) : d.isFile p = false := by
  rw [Bool.eq_false_iff, ne_eq, isFile_iff]
  rintro ⟨bytes, read⟩
  obtain ⟨located, held, plain⟩ := readBytes_eq_ok.mp read
  simp [removeFile, Bind.bind, Except.bind, located, held, plain] at refused

end PixelTables.Disk
