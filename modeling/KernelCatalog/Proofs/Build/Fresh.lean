import KernelCatalog.Proofs.Build.Built
import KernelCatalog.Proofs.Files.Prepare

/-!
# Fresh objects

A command is started on a tree in which there is nothing at the path of the object: the directory
around it is made, and what an earlier build left there is removed. So an object that counts, or
anything else that is found at that path, is the work of the program: a file that was not there, or
a link, which may lead to an older file. An object that exists already is copied instead, and holds
then what its source holds.

* `Command.startsOn_of_compile`: how a compilation ends.
* `Command.StartsOn.stat_eq`: nothing is at the path of the object when a program is started.
* `Command.StartsOn.get?_eq_none`: a file that a program leaves there is new.
* `compiled_object_is_fresh`: what is at the path of an object afterwards.
-/

namespace KernelCatalog

/-- The paths of a request are those of different files: they differ and lead to different places,
the object is no link, which would stand for another file, and the directory that relative paths
start from is there. -/
structure CompileRequest.Apart (request : CompileRequest) (files : Files) : Prop where
  path_ne : request.source.same request.output = false
  place_ne : ∀ location ∈ files.place? request.source,
    files.place? request.output ≠ some location
  not_link : files.endsInLink request.output = false
  current : files.get? files.current = some .directory

namespace Command

variable {launch : Launcher} {command : Command} {request : CompileRequest} {files : Files}

/-- The tree that a command is started on: the directory around the object is made, and the object
of an earlier build is removed. -/
def StartsOn (request : CompileRequest) (files started : Files) : Prop :=
  ∃ made, files.makeParent request.output = (.ok (), made) ∧
    removeStale made request.output = .ok started

/-! ## How a compilation ends -/

/-- An object counts if the program reports success and there is a file. -/
theorem judge_eq_ok_iff {exit : Exit} :
    command.judge request exit files = .ok () ↔
      exit.status = .code 0 ∧ files.isFile request.output = true := by
  unfold judge
  split
  · next hfailed => simp [hfailed]
  · next hended =>
    rw [not_not] at hended
    split
    · next hthere => simp [hended, hthere]
    · next hmissing => simp [hmissing]

/-- **How a compilation ends** that could prepare the tree: as the program has left it, and done only
if the program reported success and there is a file. -/
theorem startsOn_of_compile {result : Except CompileError Unit} {after : Files}
    (h : command.compile launch request files = (result, after))
    (hother : ∀ path cause, result ≠ .error (.io path cause)) :
    ∃ started, StartsOn request files started ∧
      (launch command.program (command.expandArgs request) started).2 = after ∧
      (result = .ok () → ∃ exit,
        (launch command.program (command.expandArgs request) started).1 = .ok exit ∧
        exit.status = .code 0 ∧ after.isFile request.output = true) := by
  unfold compile at h
  split at h
  · obtain ⟨rfl, -⟩ := Prod.mk.inj h
    exact absurd rfl (hother _ _)
  · next made hmade =>
    split at h
    · next e hstale =>
      obtain ⟨rfl, -⟩ := Prod.mk.inj h
      unfold removeStale at hstale
      split at hstale
      · exact absurd hstale (by simp)
      · exact absurd hstale (by simp)
      · obtain rfl := Except.error.inj hstale
        exact absurd rfl (hother _ _)
    · next started hstale =>
      refine ⟨started, ⟨made, hmade, hstale⟩, ?_⟩
      split at h
      · next hlaunch =>
        obtain ⟨rfl, rfl⟩ := Prod.mk.inj h
        exact ⟨congrArg Prod.snd hlaunch, fun hok => absurd hok (by simp)⟩
      · next exit left hlaunch =>
        obtain ⟨hjudged, rfl⟩ := Prod.mk.inj h
        refine ⟨congrArg Prod.snd hlaunch, fun hok => ⟨exit, congrArg Prod.fst hlaunch, ?_⟩⟩
        exact judge_eq_ok_iff.mp (hjudged.trans hok)

/-! ## The tree that a program is started on -/

/-- Where an object was removed if there was one, there is nothing. -/
theorem stat_of_removeStale {path : Path} {after : Files} (htree : files.IsTree)
    (h : removeStale files path = .ok after) : after.stat path = .error .notFound := by
  unfold removeStale at h
  split at h
  · next hremove =>
    obtain rfl := Except.ok.inj h
    exact Files.stat_of_remove htree hremove
  · next hmissing =>
    obtain rfl := Except.ok.inj h
    exact Files.stat_of_remove_eq_notFound hmissing
  · exact absurd h (by simp)

/-- There is nothing at the path of the object when a program is started. -/
theorem StartsOn.stat_eq {started : Files} (h : StartsOn request files started)
    (htree : files.IsTree) : started.stat request.output = .error .notFound := by
  obtain ⟨made, hmade, hstale⟩ := h
  have hparent := Files.keeps_makeParent request.output htree
  rw [hmade] at hparent
  exact stat_of_removeStale hparent.isTree hstale

/-- Preparing the tree for a program concerns the object only. -/
theorem StartsOn.keeps {started : Files} (h : StartsOn request files started)
    (htree : files.IsTree) (hends : files.endsInLink request.output = false) :
    files.Keeps (files.places [request.output]) started := by
  obtain ⟨made, hmade, hstale⟩ := h
  have hparent := Files.keeps_makeParent request.output htree
  rw [hmade] at hparent
  rw [← hparent.endsInLink_eq] at hends
  have hcleared := keeps_removeStale hparent.isTree hends hstale
  rw [hparent.places_eq] at hcleared
  exact hparent.of_nil.trans hcleared

/-- **A file that a program leaves at the path of the object is new**, if the path leads to the same
place as when the program was started. -/
theorem StartsOn.get?_eq_none {started after : Files} (h : StartsOn request files started)
    (htree : files.IsTree) (hapart : request.Apart files)
    (hplace : after.place? request.output = started.place? request.output)
    {location : Location} {file : Content × Permissions}
    (hlocate : after.locate request.output = .ok location)
    (hfile : after.fileIn? location = some file) : started.get? location = none := by
  have hstat := h.stat_eq htree
  obtain ⟨made, hmade, hstale⟩ := h
  have hparent := Files.keeps_makeParent request.output htree
  have hstart : files.get? (files.start request.output.text) = some .directory := by
    unfold Files.start Files.startFrom
    split
    · rfl
    · exact hapart.current
  obtain ⟨directory, hreach⟩ := Files.reach_makeParent htree hstart (congrArg Prod.fst hmade)
  rw [hmade] at hparent hreach
  have hends := (hparent.endsInLink_eq request.output).trans hapart.not_link
  have hcleared := keeps_removeStale hparent.isTree hends hstale
  have hreached := hcleared.reach hreach
  rw [← hparent.start_eq, ← hcleared.start_eq] at hreached
  have hsame := Files.locate_of_fileAt? hplace ((hcleared.endsInLink_eq _).trans hends) hreached
    (Files.fileAt?_eq_some_iff.mpr ⟨location, hlocate, hfile⟩) hlocate
  cases hnode : started.get? location with
  | none => rfl
  | some node =>
    rw [Files.stat_eq_ok_iff.mpr ⟨location, hsame, hnode⟩] at hstat
    exact absurd hstat (by simp)

end Command

/-- An object that was taken holds what its source held and still holds. -/
theorem Compiler.read_of_takePrebuilt {request : CompileRequest} {files after : Files}
    (htree : files.IsTree) (hapart : request.Apart files)
    (h : takePrebuilt request files = (.ok (), after)) :
    ∃ bytes, files.read request.source = .ok bytes ∧ after.read request.source = .ok bytes ∧
      after.read request.output = .ok bytes := by
  obtain ⟨⟨content, permissions⟩, hsource, hstill, hobject⟩ :=
    exists_fileAt?_of_takePrebuilt htree hapart.path_ne hapart.place_ne h
  exact ⟨content.bytes, Files.read_eq_ok_iff.mpr ⟨content, permissions, hsource, rfl⟩,
    Files.read_eq_ok_iff.mpr ⟨content, permissions, hstill, rfl⟩,
    Files.read_eq_ok_iff.mpr ⟨content, permissions, hobject, rfl⟩⟩

/-- **A compiled object is fresh**, unless its path leads elsewhere since the program was started.
If a command is done, the object is a file, there was nothing at its path when the program was
started, and the program reported success. If a command fails otherwise than in preparing the tree,
there was nothing at the path of the object either when the program was started. In both cases a
file that the path leads to afterwards is new, if the path has the place that it had then: a program
may put a link to an older file there. If an object that exists is taken, it holds what the source
holds. -/
theorem compiled_object_is_fresh {request : CompileRequest} {files : Files}
    (htree : files.IsTree) (launch : Launcher) :
    (∀ command after, Command.compile launch command request files = (.ok (), after) →
      ∃ started exit, Command.StartsOn request files started ∧
        launch command.program (command.expandArgs request) started = (.ok exit, after) ∧
        exit.status = .code 0 ∧ after.isFile request.output = true ∧
        started.stat request.output = .error .notFound ∧
        (request.Apart files → after.place? request.output = started.place? request.output →
          ∃ location file, after.locate request.output = .ok location ∧
            after.fileIn? location = some file ∧ started.get? location = none)) ∧
    (∀ command e after, Command.compile launch command request files = (.error e, after) →
      (∀ path cause, e ≠ .io path cause) →
      ∃ started, Command.StartsOn request files started ∧
        (launch command.program (command.expandArgs request) started).2 = after ∧
        started.stat request.output = .error .notFound ∧
        (request.Apart files → after.place? request.output = started.place? request.output →
          ∀ location file, after.locate request.output = .ok location →
            after.fileIn? location = some file → started.get? location = none)) ∧
    (request.Apart files → ∀ after,
      Compiler.prebuilt.compile launch request files = (.ok (), after) →
      ∃ bytes, files.read request.source = .ok bytes ∧ after.read request.source = .ok bytes ∧
        after.read request.output = .ok bytes) := by
  refine ⟨fun command after hok => ?_, fun command e after herror hother => ?_,
    fun hapart after htaken => Compiler.read_of_takePrebuilt htree hapart htaken⟩
  · obtain ⟨started, hstarts, hafter, hjudged⟩ := Command.startsOn_of_compile hok (by simp)
    obtain ⟨exit, hexit, hstatus, hthere⟩ := hjudged rfl
    refine ⟨started, exit, hstarts, Prod.ext hexit hafter, hstatus, hthere, hstarts.stat_eq htree,
      fun hapart hplace => ?_⟩
    rw [Files.isFile_eq_isSome] at hthere
    obtain ⟨file, hfile⟩ := Option.isSome_iff_exists.mp hthere
    obtain ⟨location, hlocate, hin⟩ := Files.fileAt?_eq_some_iff.mp hfile
    exact ⟨location, file, hlocate, hin, hstarts.get?_eq_none htree hapart hplace hlocate hin⟩
  · obtain ⟨started, hstarts, hafter, -⟩ := Command.startsOn_of_compile herror
      fun path cause heq => hother path cause (Except.error.inj heq)
    exact ⟨started, hstarts, hafter, hstarts.stat_eq htree, fun hapart hplace location file =>
      hstarts.get?_eq_none htree hapart hplace⟩

namespace BuildSetup

/-- A source beside the object of an earlier build. -/
def staleFiles : Files :=
  sampleFiles.put ["p", "dev.hip"] (.file (.plain (Text.toBytes "__global__ void add();")) .plain)

/-- A request to make that object again. -/
def staleRequest : CompileRequest := ⟨⟨"/p/dev.hip"⟩, .amdgpu, none, ⟨"/p//dev.o"⟩, .device⟩

/-- A program that reports success and does nothing. -/
def doNothing : Launcher := fun _ _ files => (.ok ⟨.code 0, []⟩, files)

/-- A program that writes the object has made it where nothing was, one that does nothing leaves
nothing of the object of the earlier build, and an object that is taken is written over that. -/
theorem compiled_object_is_fresh_stale :
    staleFiles.isFile staleRequest.output = true ∧
    (∃ started after, Command.StartsOn staleRequest staleFiles started ∧
      Command.compile writeObject ⟨"cc", ["\x7boutput\x7d"]⟩ staleRequest staleFiles =
        (.ok (), after) ∧
      started.get? ["p", "dev.o"] = none ∧
      after.get? ["p", "dev.o"] = some (.file (.plain sampleObject) .plain)) ∧
    (∃ after, Command.compile doNothing ⟨"true", []⟩ staleRequest staleFiles =
        (.error (.missingOutput staleRequest.output), after) ∧
      after.stat staleRequest.output = .error .notFound) ∧
    ∃ after bytes, Compiler.prebuilt.compile doNothing staleRequest staleFiles = (.ok (), after) ∧
      staleFiles.read staleRequest.source = .ok bytes ∧
      after.read staleRequest.output = .ok bytes := by
  have htree : staleFiles.IsTree := Files.isTree_of_entries (by decide +kernel)
  have hapart : staleRequest.Apart staleFiles :=
    ⟨by decide +kernel, by decide +kernel, by decide +kernel, by decide +kernel⟩
  refine ⟨by decide +kernel, ?_, ?_, ?_⟩
  · have hdone : (Command.compile writeObject ⟨"cc", ["\x7boutput\x7d"]⟩ staleRequest
        staleFiles).1 = .ok () := by decide +kernel
    have hlocate : (Command.compile writeObject ⟨"cc", ["\x7boutput\x7d"]⟩ staleRequest
        staleFiles).2.locate staleRequest.output = .ok ["p", "dev.o"] := by decide +kernel
    have hfile : (Command.compile writeObject ⟨"cc", ["\x7boutput\x7d"]⟩ staleRequest
        staleFiles).2.get? ["p", "dev.o"] = some (.file (.plain sampleObject) .plain) := by
      decide +kernel
    have hargs : Command.expandArgs ⟨"cc", ["\x7boutput\x7d"]⟩ staleRequest =
        [staleRequest.output.text] := by decide +kernel
    rcases hcompile : Command.compile writeObject ⟨"cc", ["\x7boutput\x7d"]⟩ staleRequest
      staleFiles with ⟨result, after⟩
    rw [hcompile] at hdone hlocate hfile
    obtain rfl : result = .ok () := hdone
    obtain ⟨started, exit, hstarts, hlaunch, -, -, -, hnew⟩ :=
      (compiled_object_is_fresh htree writeObject).1 _ after hcompile
    have hkept := hstarts.keeps htree hapart.not_link
    -- the program leaves the links, so the place of the object is the one that was emptied
    have hwritten := confined_writeObject "cc" staleRequest.output started hkept.isTree
      ((hkept.endsInLink_eq _).trans hapart.not_link)
    rw [← hargs, hlaunch] at hwritten
    obtain ⟨location, file, hlocated, -, hnone⟩ := hnew hapart (hwritten.place?_eq _)
    obtain rfl := Except.ok.inj (hlocate.symm.trans hlocated)
    exact ⟨started, after, hstarts, rfl, hnone, hfile⟩
  · have hmissing : (Command.compile doNothing ⟨"true", []⟩ staleRequest staleFiles).1 =
        .error (.missingOutput staleRequest.output) := by decide +kernel
    rcases hcompile : Command.compile doNothing ⟨"true", []⟩ staleRequest staleFiles with
      ⟨result, after⟩
    rw [hcompile] at hmissing
    obtain rfl : result = _ := hmissing
    obtain ⟨started, -, hafter, hstat, -⟩ :=
      (compiled_object_is_fresh htree doNothing).2.1 _ _ after hcompile (by simp)
    obtain rfl : started = after := hafter
    exact ⟨started, rfl, hstat⟩
  · have htaken : (Compiler.prebuilt.compile doNothing staleRequest staleFiles).1 = .ok () := by
      decide +kernel
    rcases hcompile : Compiler.prebuilt.compile doNothing staleRequest staleFiles with
      ⟨result, after⟩
    rw [hcompile] at htaken
    obtain rfl : result = .ok () := htaken
    obtain ⟨bytes, hsource, -, hobject⟩ :=
      (compiled_object_is_fresh htree doNothing).2.2 hapart after hcompile
    exact ⟨after, bytes, rfl, hsource, hobject⟩

/-- The same files beside an older object. -/
def olderFiles : Files :=
  staleFiles.put ["p", "old.o"] (.file (.plain sampleObject) .plain)

/-- A program that makes a link to its first argument at the second one. -/
def makeLink : Launcher := fun _ args files =>
  match args with
  | [target, link] =>
    (.ok ⟨.code 0, []⟩, files.put ((Files.segments link).filter (· ≠ "")) (.link target))
  | _ => (.error .notFound, files)

/-- **An object that is older than its compilation**: the program puts a link at its path, and the
file that this leads to was there before the program was started. -/
theorem compiled_object_behind_link :
    olderFiles.IsTree ∧ staleRequest.Apart olderFiles ∧
    ∃ started after, Command.StartsOn staleRequest olderFiles started ∧
      (makeLink "ln" ["/p/old.o", "/p//dev.o"] started).2 = after ∧
      Command.compile makeLink ⟨"ln", ["/p/old.o", "\x7boutput\x7d"]⟩ staleRequest olderFiles =
        (.ok (), after) ∧
      after.locate staleRequest.output = .ok ["p", "old.o"] ∧
      started.get? ["p", "old.o"] = some (.file (.plain sampleObject) .plain) := by
  have htree : olderFiles.IsTree := Files.isTree_of_entries (by decide +kernel)
  have hapart : staleRequest.Apart olderFiles :=
    ⟨by decide +kernel, by decide +kernel, by decide +kernel, by decide +kernel⟩
  have hdone : (Command.compile makeLink ⟨"ln", ["/p/old.o", "\x7boutput\x7d"]⟩ staleRequest
      olderFiles).1 = .ok () := by decide +kernel
  have hlocate : (Command.compile makeLink ⟨"ln", ["/p/old.o", "\x7boutput\x7d"]⟩ staleRequest
      olderFiles).2.locate staleRequest.output = .ok ["p", "old.o"] := by decide +kernel
  have hargs : Command.expandArgs ⟨"ln", ["/p/old.o", "\x7boutput\x7d"]⟩ staleRequest =
      ["/p/old.o", "/p//dev.o"] := by decide +kernel
  have hold : olderFiles.fileIn? ["p", "old.o"] = some (.plain sampleObject, .plain) := by
    decide +kernel
  rcases hcompile : Command.compile makeLink ⟨"ln", ["/p/old.o", "\x7boutput\x7d"]⟩ staleRequest
    olderFiles with ⟨result, after⟩
  rw [hcompile] at hdone hlocate
  obtain rfl : result = .ok () := hdone
  obtain ⟨started, hstarts, hafter, -⟩ := Command.startsOn_of_compile hcompile (by simp)
  rw [hargs] at hafter
  -- only the object of the earlier build was removed before the program was started
  have hkept := hstarts.keeps htree hapart.not_link
  have hstill := (hkept.file ["p", "old.o"] (by decide +kernel)).trans hold
  exact ⟨htree, hapart, started, after, hstarts, hafter, rfl, hlocate,
    Files.fileIn?_eq_some_iff.mp hstill⟩

end BuildSetup

end KernelCatalog
