import PixelTables.Proofs.Disk.Operations

namespace PixelTables

theorem Path.ancestors_cons (p : Path) : ∃ above, p.ancestors = p :: above := by
  rw [ancestors]
  cases p.text.length with
  | zero => exact ⟨[], rfl⟩
  | succ steps =>
    rw [ancestors.climb]
    split
    · exact ⟨_, rfl⟩
    · exact ⟨_, rfl⟩

namespace Disk

variable {d e : Disk} {p : Path}

theorem isDirectory_iff : d.isDirectory p = true ↔
    d.locate p = .ok (d.place p) ∧ d.lookup (d.place p) = some .directory := by
  simp only [isDirectory, find?, Bind.bind, Except.bind]
  rcases d.locate_cases p with located | ⟨why, located⟩
  · rw [located]
    cases held : d.lookup (d.place p) with
    | none => simp [held]
    | some entry =>
      cases entry with
      | directory => simp [held]
      | file bytes => cases slash : endsInSlash p <;> simp [held]
  · simp [located]

theorem Confined.isDirectory {places : List Location} (change : Confined places d e)
    (here : d.isDirectory p = true) : e.isDirectory p = true := by
  obtain ⟨located, held⟩ := isDirectory_iff.mp here
  rw [isDirectory_iff, change.place]
  exact ⟨change.locate located, change.directories _ held⟩

/-- Making directories helps only paths on which one of them was missing. -/
theorem Confined.locate_of_made {why : Trouble} (change : Confined [] d e)
    (refused : d.locate p = .error why) (there : e.isDirectory p = true) : why = .notFound := by
  by_contra other
  have files : ∀ q bytes, d.lookup q = some (.file bytes) → e.lookup q ≠ some .directory := by
    intro q bytes held
    simp [change.file (by simp) held]
  obtain ⟨_, still⟩ := locate_stays_refused change.home change.directories files refused other
  simp [(isDirectory_iff.mp there).1] at still

theorem makeDirectories_of_isDirectory (here : d.isDirectory p = true) :
    d.makeDirectories p = (d, .ok ()) := by
  obtain ⟨located, held⟩ := isDirectory_iff.mp here
  obtain ⟨above, chain⟩ := p.ancestors_cons
  have occupied : d.makeDirectory p = .error .occupied := by
    simp [makeDirectory, located, held, Bind.bind, Except.bind]
  rw [makeDirectories, chain, makeChain, occupied]
  simp [here]

theorem isDirectory_of_makeDirectory (made : d.makeDirectory p = .ok e) :
    e.isDirectory p = true := by
  have change := makeDirectory_confined made
  obtain ⟨free, same⟩ := makeDirectory_eq_ok made
  have below : d.place p ≠ [] := ne_root_of_lookup (d := d) (by simp [free])
  rw [isDirectory_iff, change.place]
  rcases d.locate_cases p with located | ⟨why, located⟩
  · exact ⟨change.locate located, by rw [same, lookup_insert below, if_pos rfl]⟩
  · simp [makeDirectory, located, Bind.bind, Except.bind] at made

theorem makeDirectories_empty (d : Disk) : d.makeDirectories ⟨""⟩ = (d, .ok ()) := rfl

theorem isDirectory_empty (d : Disk) : d.isDirectory ⟨""⟩ = false := by
  simp [isDirectory, find?, locate, Bind.bind, Except.bind]

theorem isDirectory_of_makeDirectories (filled : p.text ≠ "")
    (made : d.makeDirectories p = (e, .ok ())) : e.isDirectory p = true := by
  -- a refusal is let pass where the directory is there after all
  have passed : ∀ {f : Disk} {why : Trouble},
      (f, if f.isDirectory p then Except.ok () else .error why) = (e, .ok ()) →
        e.isDirectory p = true := by
    intro f why same
    obtain ⟨rfl, result⟩ := Prod.mk.inj same
    by_contra other
    simp [other] at result
  obtain ⟨above, chain⟩ := p.ancestors_cons
  rw [makeDirectories, chain, makeChain, if_neg filled] at made
  split at made
  · rename_i first
    exact isDirectory_of_makeDirectory (first.trans (congrArg _ (Prod.mk.inj made).1))
  · split at made
    · cases made
    · split at made
      · rename_i last
        exact isDirectory_of_makeDirectory (last.trans (congrArg _ (Prod.mk.inj made).1))
      · exact passed made
  · exact passed made

theorem Writable.of_readBytes {bytes : ByteArray} (read : d.readBytes p = .ok bytes) :
    d.Writable p := by
  obtain ⟨located, held, plain⟩ := readBytes_eq_ok.mp read
  exact ⟨located, by simp [held], plain⟩

theorem Writable.mono {places : List Location} (here : d.Writable p) (change : Confined places d e)
    (directories : NoDirectoryMade d e) : e.Writable p := by
  refine ⟨?_, ?_, here.plain⟩
  · rw [change.place]
    exact change.locate here.located
  · rw [change.place]
    exact fun made => here.free (directories _ made)

theorem writeFile_of_writable (here : d.Writable p) (sound : d.faults (d.place p) = none)
    (bytes : ByteArray) :
    d.writeFile p bytes = (d.insert (d.place p) (.file bytes), .ok ()) := by
  have site := fileSite_eq_ok.mpr ⟨rfl, here⟩
  simp only [writeFile, site, sound]

theorem moveFile_of_writable {source : Path} {bytes : ByteArray}
    (read : d.readBytes source = .ok bytes) (here : d.Writable p) :
    d.moveFile source p = .ok ((d.erase (d.place source)).insert (d.place p) (.file bytes)) := by
  obtain ⟨start, _, _⟩ := readBytes_eq_ok.mp read
  simp only [moveFile, read, start, here.located, here.plain, Bind.bind, Except.bind,
    Bool.false_eq_true, ↓reduceIte]
  split
  · exact absurd ‹_› here.free
  · rfl

end Disk

end PixelTables
