import KernelCatalog.CommandLine.Command
import KernelCatalog.Proofs.Build.Summary
import KernelCatalog.Proofs.Build.Writes

/-!
# Two ways to a generated source

The host source of an object is generated by a command that is given the object, and by the stage of
a build that extracts it. The command looks up the encoding that the header names by the architecture
of the object, the stage by that of the catalog; a backend gives catalogs of its own architecture, so
this is the same. So either both give the same source or neither gives one.

* `Registry.architecture_of_extract`: the architecture of a catalog.
* `CommandLine.toOption_generate`: what is generated.
* `CommandLine.extract_agrees_with_stage`: what is printed or written.
-/

namespace KernelCatalog

/-! ## Architectures -/

theorem Descriptor.architecture_catalogOf (object : Object) (found : List Found) :
    (catalogOf object found).architecture = .amdgpu :=
  List.foldlRecOn (motive := fun catalog : Catalog => catalog.architecture = .amdgpu) _ _ rfl
    fun _ h _ _ => h

/-- The backend that reads the encoding gives catalogs of its own architecture. -/
theorem Descriptor.architecture_of_extract {object : Object} {catalog : Catalog}
    (h : backend.extract object = .ok catalog) : catalog.architecture = backend.architecture := by
  unfold backend at h
  dsimp only at h
  split at h
  · next hread =>
    obtain rfl := Except.ok.inj h
    unfold readCatalog at hread
    split at hread
    · exact absurd hread (by simp)
    · split at hread
      · exact absurd hread (by simp)
      · obtain rfl := Except.ok.inj hread
        exact architecture_catalogOf object _
  · exact absurd h (by simp)

/-- **A catalog is of the architecture of its object**, with the backends that this program has. -/
theorem Registry.architecture_of_extract {object : Object} {catalog : Catalog}
    (h : Registry.standard.extract object = .ok catalog) :
    catalog.architecture = object.architecture := by
  unfold Registry.extract at h
  split at h
  · next backend hbackend =>
    have harchitecture : backend.architecture = object.architecture := by
      simpa using List.find?_some hbackend
    obtain rfl : backend = Descriptor.backend :=
      List.mem_singleton.mp (List.mem_of_find?_eq_some hbackend)
    rw [Descriptor.architecture_of_extract h, harchitecture]
  · exact absurd h (by simp)

/-! ## Files that can be written -/

/-- A file can be written at a path: the directory around it can be made, and then the file. -/
def Files.Takes (files : Files) (path : Path) : Prop :=
  (files.makeParent path).1 = .ok () ∧ ∃ spot, (files.makeParent path).2.writable path = .ok spot

/-- Any text can be written there. -/
theorem Files.Takes.exists_writeText {files : Files} {path : Path} (h : files.Takes path)
    (text : String) : ∃ made after, files.makeParent path = (.ok (), made) ∧
      made.writeText path text = .ok after := by
  obtain ⟨hmade, ⟨location, flag⟩, hwritable⟩ := h
  have hwrite : (files.makeParent path).2.writeText path text = .ok
      ((files.makeParent path).2.put location
        (.file (.plain (Text.toBytes text)) (flag.getD .plain))) := by
    rw [writeText, write, writeContent, hwritable]
    rfl
  exact ⟨_, _, Prod.ext hmade rfl, hwrite⟩

/-- A stage can write any text there, if it has to. -/
theorem Extraction.exists_writeIfChanged {files : Files} {path : Path} (h : files.Takes path)
    (text : String) : ∃ changed after, writeIfChanged files path text = (.ok changed, after) := by
  obtain ⟨made, after, hmade, hwrite⟩ := h.exists_writeText text
  unfold writeIfChanged
  split
  · exact ⟨false, files, rfl⟩
  · rw [hmade]
    dsimp only
    rw [hwrite]
    exact ⟨true, after, rfl⟩

/-- What a stage is set to do that chooses at most the path of the types. -/
def Extraction.standard (typesPath : Option String) (generatedPath : Path) : Extraction :=
  ⟨.standard, generatedPath, { typesPath := typesPath.getD HostSource.defaultTypesPath }⟩

namespace CommandLine

variable {files left : Files} {path text : String} {bytes : Bytes} {typesPath out : Option String}

/-! ## Sources -/

/-- **The command and the stage generate the same** from the same bytes, or both nothing. -/
theorem toOption_generate (hread : files.read ⟨path⟩ = .ok bytes) (binary generatedPath : Path) :
    (generate path typesPath files).toOption =
      ((Extraction.standard typesPath generatedPath).generate binary bytes).toOption := by
  unfold generate Extraction.generate Object.load Object.readFrom
  rw [Object.readBytes, hread]
  cases hobject : Object.read bytes with
  | error fault => simp [bind, Except.bind, hobject, Except.toOption]
  | ok object =>
    cases hextract : Registry.standard.extract object with
    | error e =>
      simp [bind, Except.bind, hobject, hextract, Except.toOption, Extraction.standard]
    | ok catalog =>
      have harchitecture := Registry.architecture_of_extract hextract
      simp [bind, Except.bind, hobject, hextract, Except.toOption, Extraction.standard,
        Extraction.renderOptions, harchitecture]

/-- A command can write any text to a file that can be written, which then holds it. -/
theorem exists_writeSource (htree : files.IsTree) {file : String} (h : files.Takes ⟨file⟩)
    (text : String) : ∃ left, writeSource file text files = (.ok (), left) ∧
      left.read ⟨file⟩ = .ok (Text.toBytes text) := by
  obtain ⟨made, left, hmade, hwrite⟩ := h.exists_writeText text
  have hkept := Files.keeps_makeParent ⟨file⟩ htree
  rw [hmade] at hkept
  obtain ⟨-, permissions, hfile⟩ := Files.keeps_writeContent hkept.isTree hwrite
  refine ⟨left, ?_, Files.read_eq_ok_iff.mpr ⟨_, permissions, hfile, rfl⟩⟩
  rw [writeSource, hmade]
  dsimp only
  rw [hwrite]

/-- A text that a command has printed, or written to the file that it was given. -/
def Delivers (out : Option String) (answer : Answer) (left : Files) (text : String) : Prop :=
  answer.failure = none ∧
    match out with
    | none => answer.output = text
    | some file => left.read ⟨file⟩ = .ok (Text.toBytes text)

/-- The command fails where nothing is generated. -/
theorem failure_of_generate_eq_error {answer : Answer} {verbose : Bool} {failure : Failure}
    (hgenerate : generate path typesPath files = .error failure)
    (htold : extract path out typesPath verbose false files = (answer, left)) :
    answer.failure ≠ none := by
  rw [extract, hgenerate] at htold
  obtain ⟨rfl, -⟩ := Prod.mk.inj htold
  simp [Answer.failed]

/-- The command delivers what it generates. -/
theorem delivers_of_generate {answer : Answer} {verbose : Bool} {catalog : Catalog}
    (htree : files.IsTree) (hgenerate : generate path typesPath files = .ok (catalog, text))
    (hout : ∀ file ∈ out, files.Takes ⟨file⟩)
    (htold : extract path out typesPath verbose false files = (answer, left)) :
    Delivers out answer left text := by
  rw [extract, hgenerate] at htold
  dsimp only at htold
  cases out with
  | none =>
    obtain ⟨rfl, -⟩ := Prod.mk.inj htold
    exact ⟨rfl, rfl⟩
  | some file =>
    obtain ⟨written, hwrite, hread⟩ := exists_writeSource htree (hout file rfl) text
    dsimp only at htold
    rw [hwrite] at htold
    obtain ⟨rfl, rfl⟩ := Prod.mk.inj htold
    exact ⟨rfl, hread⟩

/-- A stage whose binary is there comes to what it generates, where that can be written. -/
theorem run_standard {shared : Files} {binary generatedPath : Path}
    (hread : shared.read binary = .ok bytes) (hgenerated : shared.Takes generatedPath)
    (stage target : String) :
    ∀ result after, (Extraction.standard typesPath generatedPath).run
        ⟨stage, target, .device, .done, some binary⟩ shared = (result, after) →
      result.toOption.map (fun extracted => (extracted.catalog, extracted.generated)) =
        ((Extraction.standard typesPath generatedPath).generate binary bytes).toOption := by
  intro result after hrun
  have hbinary : Extraction.binary ⟨stage, target, .device, .done, some binary⟩ = .ok binary := rfl
  rw [Extraction.run, hbinary] at hrun
  dsimp only at hrun
  rw [Object.readBytes, hread] at hrun
  dsimp only at hrun
  cases hgenerate : (Extraction.standard typesPath generatedPath).generate binary bytes with
  | error e =>
    rw [hgenerate] at hrun
    obtain ⟨rfl, -⟩ := Prod.mk.inj hrun
    rfl
  | ok made =>
    obtain ⟨catalog, text⟩ := made
    obtain ⟨changed, written, hwrite⟩ := Extraction.exists_writeIfChanged hgenerated text
    rw [hgenerate] at hrun
    dsimp only [Extraction.standard] at hrun
    rw [hwrite] at hrun
    obtain ⟨rfl, -⟩ := Prod.mk.inj hrun
    rfl

/-- **The command and the stage agree.** From files with the same bytes, where the stage stands behind
a device compilation that is done, and where the results can be written, both fail, or the text that
the command prints or writes is the text that the stage has made and that its file holds. -/
theorem extract_agrees_with_stage {shared : Files} {binary generatedPath : Path}
    (htree : files.IsTree) (htree' : shared.IsTree) (hread : files.read ⟨path⟩ = .ok bytes)
    (hread' : shared.read binary = .ok bytes)
    (hout : ∀ file ∈ out, files.Takes ⟨file⟩)
    (hgenerated : shared.Takes generatedPath) (stage target : String) (verbose : Bool) :
    ∃ answer left result after,
      extract path out typesPath verbose false files = (answer, left) ∧
      (Extraction.standard typesPath generatedPath).run
        ⟨stage, target, .device, .done, some binary⟩ shared = (result, after) ∧
      (answer.failure ≠ none ∧ (∃ e, result = .error e) ∨
        ∃ extracted, result = .ok extracted ∧ Delivers out answer left extracted.generated ∧
          after.read generatedPath = .ok (Text.toBytes extracted.generated)) := by
  have hagree : (generate path typesPath files).toOption = _ :=
    toOption_generate hread binary generatedPath
  rcases htold : extract path out typesPath verbose false files with ⟨answer, left⟩
  rcases hrun : (Extraction.standard typesPath generatedPath).run
    ⟨stage, target, .device, .done, some binary⟩ shared with ⟨result, after⟩
  rw [← run_standard hread' hgenerated stage target result after hrun] at hagree
  refine ⟨answer, left, result, after, rfl, rfl, ?_⟩
  cases hgenerate : generate path typesPath files with
  | error failure =>
    rw [hgenerate] at hagree
    cases result with
    | error e => exact Or.inl ⟨failure_of_generate_eq_error hgenerate htold, e, rfl⟩
    | ok extracted => exact absurd hagree (by simp [Except.toOption])
  | ok made =>
    rw [hgenerate] at hagree
    cases result with
    | error e => exact absurd hagree (by simp [Except.toOption])
    | ok extracted =>
      obtain rfl := Option.some.inj hagree
      exact Or.inr ⟨extracted, rfl, delivers_of_generate htree hgenerate hout htold,
        (Extraction.leaves_of_run htree' hrun).2.read_eq⟩

/-- From the object of the sample, the command writes to one file what the stage writes to
another. -/
theorem extract_agrees_with_stage_sample :
    ∃ answer left extracted after,
      extract "/p/dev.o" (some "/p/out/kernels.rs") (some "types::") true false
        BuildSetup.sampleFiles = (answer, left) ∧
      (Extraction.standard (some "types::") ⟨"/p/generated/dev.rs"⟩).run
        ⟨"device-compile:dev", "dev", .device, .done, some ⟨"/p/dev.o"⟩⟩
          BuildSetup.sampleFiles = (.ok extracted, after) ∧
      left.read ⟨"/p/out/kernels.rs"⟩ = after.read ⟨"/p/generated/dev.rs"⟩ := by
  have htree : BuildSetup.sampleFiles.IsTree :=
    Files.isTree_of_entries (by decide +kernel)
  have hread : BuildSetup.sampleFiles.read ⟨"/p/dev.o"⟩ = .ok BuildSetup.sampleObject := by
    decide +kernel
  have hout : BuildSetup.sampleFiles.Takes ⟨"/p/out/kernels.rs"⟩ :=
    ⟨by decide +kernel, (["p", "out", "kernels.rs"], none), by decide +kernel⟩
  have houts : ∀ file ∈ some "/p/out/kernels.rs", BuildSetup.sampleFiles.Takes ⟨file⟩ := by
    rintro file ⟨⟩
    exact hout
  have hgenerated : BuildSetup.sampleFiles.Takes ⟨"/p/generated/dev.rs"⟩ :=
    ⟨by decide +kernel, (["p", "generated", "dev.rs"], none), by decide +kernel⟩
  have hmade : ((Extraction.standard (some "types::") ⟨"/p/generated/dev.rs"⟩).run
      ⟨"device-compile:dev", "dev", .device, .done, some ⟨"/p/dev.o"⟩⟩
        BuildSetup.sampleFiles).1.toOption.isSome = true := by decide +kernel
  obtain ⟨answer, left, result, after, htold, hrun, hends⟩ :=
    extract_agrees_with_stage htree htree hread hread houts hgenerated
      "device-compile:dev" "dev" true
  have hsome : result.toOption.isSome = true :=
    (congrArg (fun ended => ended.1.toOption.isSome) hrun).symm.trans hmade
  rcases hends with ⟨-, e, rfl⟩ | ⟨extracted, rfl, ⟨-, hwritten⟩, hgenerated⟩
  · exact absurd hsome (by simp [Except.toOption])
  · exact ⟨answer, left, extracted, after, htold, hrun, hwritten.trans hgenerated.symm⟩

end CommandLine

end KernelCatalog
