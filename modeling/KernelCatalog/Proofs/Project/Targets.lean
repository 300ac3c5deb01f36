import KernelCatalog.CommandLine.Command
import KernelCatalog.Proofs.Files.Steps
import KernelCatalog.Proofs.Ledger.Opening
import KernelCatalog.Proofs.Project.Config
import KernelCatalog.Proofs.Project.Saved

/-!
# Adding targets to a project

Targets are added one after another and checked on the way, and the whole configuration is checked
again before it is saved. Both checks together accept what the second one accepts. What is refused
leaves the file of the configuration as it was, unless that is where opening the ledger finds a
journal to deal with.

* `Project.of_addTargets_eq_ok`: what a project is with targets added.
* `Project.exists_addTargets`: targets of a valid configuration are added.
* `Config.save_of_fileAt?`: a valid configuration is saved over one that is there.
* `Project.fileAt?_of_openAt`: opening a project keeps its configuration.
* `CommandLine.addTargets_saves_iff_valid`: what adding targets comes to.
-/

namespace KernelCatalog

namespace Config

/-- A configuration with further targets behind its own. -/
def extend (config : Config) (targets : List Target) : Config :=
  { config with targets := config.targets ++ targets }

end Config

/-! ## Adding -/

namespace Project

/-- A project whose configuration has further targets. -/
def extend (project : Project) (targets : List Target) : Project :=
  { project with config := project.config.extend targets }

/-- **A project with targets added** has them behind its own, and tells of each where its source is
generated. -/
theorem of_addTargets_eq_ok {project extended : Project} {targets : List Target}
    {added : List (String × String)} (h : project.addTargets targets = .ok (extended, added)) :
    extended = project.extend targets ∧ added = targets.map fun target =>
      (target.name, project.layout.relative (target.job project.layout).generated) := by
  induction targets generalizing project extended added with
  | nil =>
    obtain ⟨rfl, rfl⟩ := Prod.mk.inj (Except.ok.inj h)
    simp [extend, Config.extend]
  | cons target rest ih =>
    obtain ⟨config, hadd, h⟩ := of_bind_eq_ok h
    obtain ⟨⟨next, more⟩, hrest, h⟩ := of_bind_eq_ok h
    obtain ⟨rfl, rfl⟩ := Prod.mk.inj (Except.ok.inj h)
    obtain ⟨rfl, rfl⟩ := ih hrest
    unfold Config.add at hadd
    split_ifs at hadd
    obtain rfl := Except.ok.inj hadd
    simp [extend, Config.extend]

/-- **Targets are added** if the configuration with all of them is valid. -/
theorem exists_addTargets {project : Project} {targets : List Target}
    (h : (project.config.extend targets).validate project.layout = .ok ()) :
    ∃ extended added, project.addTargets targets = .ok (extended, added) := by
  induction targets generalizing project with
  | nil => exact ⟨project, [], rfl⟩
  | cons target rest ih =>
    obtain ⟨hnames, hexclusive⟩ := Config.validate_eq_ok_iff.mp h
    have hblank : Config.isBlankName target.name = false :=
      hnames target (by simp [Config.extend])
    have hnew : project.config.target? target.name = none := by
      rw [Config.target?, List.find?_eq_none]
      intro first hfirst
      rw [Config.extend, List.map_append, List.pairwise_append] at hexclusive
      have hpair := hexclusive.2.2 _ (List.mem_map_of_mem hfirst) (target.job project.layout)
        (List.mem_map_of_mem List.mem_cons_self)
      have hname : first.name ≠ target.name := hpair.name_ne
      simpa using hname
    have hadd : project.config.add target = .ok (project.config.extend [target]) := by
      rw [Config.add, if_neg (by simp [hblank]), if_neg (by simp [hnew])]
      rfl
    have hrest : ({ project with config := project.config.extend [target] } : Project).config.extend
        rest = project.config.extend (target :: rest) := by
      simp [Config.extend]
    obtain ⟨extended, added, hadded⟩ := ih (hrest ▸ h)
    exact ⟨extended, (target.name, project.layout.relative (target.job project.layout).generated) ::
      added, by rw [addTargets, hadd]; simp only [bind, Except.bind, hadded]⟩

/-- What is saved of a project with further targets. -/
theorem save_extend (project : Project) (targets : List Target) (files : Files) :
    (project.extend targets).save files =
      Config.save files project.layout (project.config.extend targets) := rfl

end Project

/-! ## Files of configurations -/

/-- A text can be written to a file that is there and may be written. -/
theorem Files.exists_writeText {files : Files} (htree : files.IsTree) {path : Path}
    {file : Content × Permissions} (h : files.fileAt? path = some file)
    (hallows : files.allows file.2 = true) (text : String) :
    ∃ after, files.writeText path text = .ok after := by
  obtain ⟨location, -, hwritable⟩ := Files.writable_of_fileAt? htree h
  rw [if_pos hallows] at hwritable
  exact ⟨files.put location (.file (.plain (Text.toBytes text)) file.2), by
    rw [writeText, write, writeContent, hwritable]; rfl⟩

namespace Layout

theorem metaDir_ne (layout : Layout) : layout.metaDir.text ≠ "" := by
  obtain ⟨front, htext, -⟩ :=
    layout.root.exists_join_eq_append (show '/' ∉ ".kbridge".toList by decide)
  intro hempty
  have hnil : layout.metaDir.text.toList = [] := by simp [hempty]
  exact absurd (htext.symm.trans hnil) (by simp)

/-- The metadata directory is around the configuration. -/
theorem isAround_configPath (layout : Layout) : layout.metaDir.IsAround layout.configPath :=
  Path.isAround_join (by decide) (by decide)
    (layout.root.trimmed_join (by decide) (by decide)) layout.metaDir_ne

end Layout

namespace Config

variable {files : Files} {layout : Layout} {config : Config}

/-- A configuration that is not valid is not saved. -/
theorem save_of_invalid {e : ConfigError} (h : config.validate layout = .error e) :
    save files layout config =
      (.error (e.failure.context "Refusing to save invalid project config"), files) := by
  rw [save, h]

/-- **Saving a valid configuration** over one that is there comes down to writing its text. -/
theorem save_of_fileAt? {file : Content × Permissions}
    (hfile : files.fileAt? layout.configPath = some file)
    (hvalid : config.validate layout = .ok ()) :
    save files layout config =
      match files.writeText layout.configPath config.render with
      | .error e => (.error (e.failure.context
          ("Failed to write project config to " ++ layout.configPath.text)), files)
      | .ok after => (.ok (), after) := by
  have hmeta : layout.metaDir.text.isEmpty = false := by simpa using layout.metaDir_ne
  rw [save, hvalid]
  cases hwrite : files.writeText layout.configPath config.render <;>
    simp only [Files.makeDirectories_of_fileAt? hfile layout.isAround_configPath hmeta, hwrite]

theorem parse_of_ofText {text : String} (h : ofText layout text = .ok config) :
    parse text = .ok config := by
  obtain ⟨parsed, hparsed, h⟩ := of_bind_eq_ok h
  unfold withContext at hparsed
  split at hparsed
  · next found hparse =>
    obtain rfl := Except.ok.inj hparsed
    split at h
    · exact Except.ok.inj h ▸ hparse
    · exact absurd h (by simp)
  · exact absurd hparsed (by simp)

theorem load_of_readText (hread : files.readText layout.configPath = .ok config.render)
    (hvalid : config.validate layout = .ok ()) : load files layout = .ok config := by
  unfold load
  rw [hread]
  simp only [ofText, parse_render, withContext, bind, Except.bind, hvalid]

/-- What is loaded is in a file, which holds no ledger. -/
theorem exists_file_of_load (h : load files layout = .ok config) :
    ∃ content permissions, files.fileAt? layout.configPath = some (content, permissions) ∧
      ∀ store, Ledger.contentStore content ≠ .ok store := by
  unfold load at h
  split at h
  · exact absurd h (by simp)
  · next text hread =>
    obtain ⟨bytes, hread, htext⟩ := of_bind_eq_ok hread
    obtain ⟨content, permissions, hfile, rfl⟩ := Files.read_eq_ok_iff.mp hread
    refine ⟨content, permissions, hfile, fun store hstore => ?_⟩
    have hparse := parse_of_ofText h
    -- neither what a ledger starts with nor nothing is JSON
    cases content with
    | ledger held =>
      have hmark : Text.ofBytes? Content.ledgerMark = some "SQLite format 3\x00" := by decide +kernel
      have hnone : parse "SQLite format 3\x00" = .error { message := "<json>" } := by decide +kernel
      simp only [Content.bytes, hmark] at htext
      rw [← Except.ok.inj htext, hnone] at hparse
      exact absurd hparse (by simp)
    | plain bytes =>
      cases bytes with
      | nil =>
        have hempty : Text.ofBytes? [] = some "" := by decide +kernel
        have hnone : parse "" = .error { message := "<json>" } := by decide +kernel
        simp only [Content.bytes, hempty] at htext
        rw [← Except.ok.inj htext, hnone] at hparse
        exact absurd hparse (by simp)
      | cons first rest => exact absurd hstore (by simp [Ledger.contentStore])

end Config

/-! ## Opening -/

theorem Ledger.Handle.ne_nil_of_mem_journals {handle : Ledger.Handle} {journal : Location}
    (h : journal ∈ handle.journals) : journal ≠ [] := by
  cases handle with
  | memory store => exact absurd h (by simp [journals, places])
  | fixed store => exact absurd h (by simp [journals, places])
  | file location removals readOnly =>
    obtain rfl : journal = journalAt location := List.mem_singleton.mp h
    exact journalAt_ne_nil location

namespace Project

variable {files opened : Files} {root : Path} {project : Project}

/-- An open project has the configuration that was loaded. -/
theorem of_openAt_eq_ok (h : openAt files root = (.ok project, opened)) :
    project.layout = ⟨root⟩ ∧ Config.load files project.layout = .ok project.config ∧
      Ledger.openFile files project.ledgerPath = (.ok project.ledger, opened) := by
  unfold openAt at h
  dsimp only at h
  split at h
  · exact absurd (congrArg Prod.fst h) (by simp)
  · next config hload =>
    split at h
    · exact absurd (congrArg Prod.fst h) (by simp)
    · next ledger after hledger =>
      obtain ⟨hproject, rfl⟩ := Prod.mk.inj h
      obtain rfl := Except.ok.inj hproject
      exact ⟨rfl, hload, hledger⟩

/-- A project is opened with its configuration and its ledger. -/
theorem openAt_of_load {config : Config} {ledger : Ledger.Handle}
    (hload : Config.load files ⟨root⟩ = .ok config)
    (hledger : Ledger.openFile files ((Layout.mk root).resolve config.ledger.path) =
      (.ok ledger, opened)) :
    openAt files root =
      (.ok ⟨⟨root⟩, config, (Layout.mk root).resolve config.ledger.path, ledger⟩, opened) := by
  unfold openAt
  dsimp only
  rw [hload]
  dsimp only
  rw [hledger]

/-- **Opening a project keeps its configuration**, unless that depends on what is in the place of
the journal of the ledger. -/
theorem fileAt?_of_openAt (htree : files.IsTree) (h : openAt files root = (.ok project, opened))
    (hjournal : ∀ journal ∈ project.ledger.journals,
      (files.erase journal).fileAt? project.layout.configPath =
        files.fileAt? project.layout.configPath) :
    opened.IsTree ∧ opened.unrestricted = files.unrestricted ∧
      ∃ file, files.fileAt? project.layout.configPath = some file ∧
        opened.fileAt? project.layout.configPath = some file := by
  obtain ⟨-, hload, hledger⟩ := of_openAt_eq_ok h
  obtain ⟨content, permissions, hfile, hnot⟩ := Config.exists_file_of_load hload
  obtain ⟨base, written, hbase, hkept, hwritten⟩ := Ledger.keeps_of_openFile htree hledger
  refine ⟨hkept.isTree, ?_, _, hfile, hkept.fileAt?_of_some ?_ ?_⟩
  · rw [hkept.unrestricted_eq]
    rcases hbase with rfl | ⟨journal, -, rfl⟩ <;> rfl
  · intro location hlocate hmem
    have hheld : base.fileAt? project.layout.configPath = some (content, permissions) := by
      rcases hbase with rfl | ⟨journal, hjournalMem, rfl⟩
      · exact hfile
      · rw [hjournal journal hjournalMem, hfile]
    obtain ⟨place, hplace, hin⟩ := Files.fileAt?_eq_some_iff.mp hheld
    obtain rfl := Except.ok.inj (hplace.symm.trans hlocate)
    have hinFiles : files.fileIn? place = some (content, permissions) := by
      rcases hbase with rfl | ⟨journal, hjournalMem, rfl⟩
      · exact hin
      · rw [Files.fileIn?_eq_some_iff,
          Files.get?_erase _ (Ledger.Handle.ne_nil_of_mem_journals hjournalMem)] at hin
        split at hin
        · exact absurd hin (by simp)
        · exact Files.fileIn?_eq_some_iff.mpr hin
    obtain ⟨store, hstore⟩ := hwritten place hmem content permissions hinFiles
    exact hnot store hstore
  · rcases hbase with rfl | ⟨journal, hjournalMem, rfl⟩
    · exact hfile
    · rw [hjournal journal hjournalMem, hfile]

end Project

/-! ## What adding targets comes to -/

namespace CommandLine

/-- An answer of lines tells of no failure. -/
theorem failure_ofLines (texts : List String) : (Answer.ofLines texts).failure = none := rfl

section Added

variable {root : String} {targets : List Target} {files opened after : Files} {project : Project}

/-- Whichever check refuses targets, nothing is written. -/
theorem addTargets_of_invalid {e : ConfigError}
    (hopen : Project.openAt files (canonicalRoot files root) = (.ok project, opened))
    (hvalid : (project.config.extend targets).validate project.layout = .error e) :
    ∃ failure, addTargets root targets files = (.failed failure, opened) := by
  unfold addTargets
  rw [hopen]
  dsimp only
  split
  · exact ⟨_, rfl⟩
  · next extended added hadded =>
    obtain ⟨rfl, -⟩ := Project.of_addTargets_eq_ok hadded
    rw [Project.save_extend, Config.save_of_invalid hvalid]
    exact ⟨_, rfl⟩

/-- Targets of a valid configuration are saved with it, or nothing is where it cannot be written. -/
theorem addTargets_of_valid
    (hopen : Project.openAt files (canonicalRoot files root) = (.ok project, opened))
    (hvalid : (project.config.extend targets).validate project.layout = .ok ()) :
    ∃ texts, addTargets root targets files =
      match Config.save opened project.layout (project.config.extend targets) with
      | (.error failure, left) => (.failed failure, left)
      | (.ok (), left) => (.ofLines texts, left) := by
  obtain ⟨extended, added, hadded⟩ := Project.exists_addTargets hvalid
  obtain ⟨rfl, -⟩ := Project.of_addTargets_eq_ok hadded
  unfold addTargets
  rw [hopen]
  dsimp only
  rw [hadded]
  dsimp only
  rw [Project.save_extend]
  rcases Config.save opened project.layout (project.config.extend targets) with ⟨_ | _, left⟩
  · exact ⟨[], rfl⟩
  · exact ⟨_, rfl⟩

/-- **What adding targets comes to.** They are added if the configuration with all of them behind
its own targets is valid and its file may be written, and then it is what is loaded. Otherwise the
file of the configuration is as it was. It must not depend on what is in the place of the journal of
the ledger, which opening the ledger may take away. -/
theorem addTargets_saves_iff_valid {answer : Answer} (htree : files.IsTree)
    (hopen : Project.openAt files (canonicalRoot files root) = (.ok project, opened))
    (hjournal : ∀ journal ∈ project.ledger.journals,
      (files.erase journal).fileAt? project.layout.configPath =
        files.fileAt? project.layout.configPath)
    (hadd : addTargets root targets files = (answer, after)) :
    ((∀ file ∈ files.fileAt? project.layout.configPath, files.allows file.2 = true) →
        (answer.failure = none ↔
          (project.config.extend targets).validate project.layout = .ok ())) ∧
      (answer.failure = none →
        Config.load after project.layout = .ok (project.config.extend targets)) ∧
      (answer.failure ≠ none →
        after.fileAt? project.layout.configPath = files.fileAt? project.layout.configPath) := by
  obtain ⟨hopened, huser, file, hfile, hkept⟩ := Project.fileAt?_of_openAt htree hopen hjournal
  cases hvalid : (project.config.extend targets).validate project.layout with
  | error e =>
    obtain ⟨failure, hfailed⟩ := addTargets_of_invalid hopen hvalid
    obtain ⟨rfl, rfl⟩ := Prod.mk.inj (hfailed.symm.trans hadd)
    refine ⟨by simp [Answer.failed], fun hnone => absurd hnone (by simp [Answer.failed]), ?_⟩
    exact fun _ => hkept.trans hfile.symm
  | ok _ =>
    obtain ⟨texts, hsaved⟩ := addTargets_of_valid hopen hvalid
    have hsave := Config.save_of_fileAt? hkept hvalid
    cases hwrite : opened.writeText project.layout.configPath
      (project.config.extend targets).render with
    | error e =>
      rw [hwrite] at hsave
      rw [hsave] at hsaved
      obtain ⟨rfl, rfl⟩ := Prod.mk.inj (hsaved.symm.trans hadd)
      refine ⟨fun hwritable => ?_, fun hnone => absurd hnone (by simp [Answer.failed]), ?_⟩
      · -- opening the project leaves the user who may write the file
        have hallows : opened.allows file.2 = true := by
          rw [Files.allows, huser]
          exact hwritable file hfile
        obtain ⟨saved, hsaved⟩ := Files.exists_writeText hopened hkept hallows
          (project.config.extend targets).render
        exact absurd (hwrite.symm.trans hsaved) (by simp)
      · exact fun _ => hkept.trans hfile.symm
    | ok saved =>
      rw [hwrite] at hsave
      rw [hsave] at hsaved
      obtain ⟨rfl, rfl⟩ := Prod.mk.inj (hsaved.symm.trans hadd)
      refine ⟨by simp [failure_ofLines], fun _ => ?_, fun hfailure =>
        absurd (failure_ofLines texts) hfailure⟩
      exact Config.load_of_readText (Config.of_save_eq_ok hopened hsave).2 hvalid

end Added

/-- A configuration with a target. -/
def oneTarget : Config :=
  { Config.new "one" "runs.db" with
    targets := [⟨"dev", "dev.o", .amdgpu, none, .prebuilt, none⟩] }

/-- A target of the same name. -/
def sameName : Target := ⟨"dev", "other.o", .amdgpu, none, .prebuilt, none⟩

/-- That configuration is refused with a further target of the same name. -/
theorem exists_validate_extend_sameName :
    ∃ e, (oneTarget.extend [sameName]).validate ⟨⟨"/q"⟩⟩ = .error e :=
  ⟨.duplicateTarget "dev", rfl⟩

/-- Without that target it is valid. -/
theorem validate_oneTarget : oneTarget.validate ⟨⟨"/q"⟩⟩ = .ok () := by
  have hblank : Config.isBlankName "dev" = false := by decide +kernel
  exact Config.validate_eq_ok_iff.mpr ⟨by simp [oneTarget, hblank], by simp [oneTarget]⟩

theorem configPath_eq : (Layout.mk ⟨"/q"⟩).configPath = ⟨"/q/.kbridge/project.json"⟩ := rfl

/-- The configuration is loaded from a file that holds its text. -/
theorem load_oneTarget {files : Files} (h : files.read ⟨"/q/.kbridge/project.json"⟩ =
    .ok (Text.toBytes oneTarget.render)) : Config.load files ⟨⟨"/q"⟩⟩ = .ok oneTarget := by
  refine Config.load_of_readText ?_ validate_oneTarget
  rw [configPath_eq]
  exact Files.readText_of_read h

/-- A project of an ordinary user with bytes for its configuration. -/
def configuredFiles (bytes : Bytes) : Files :=
  ((Files.empty ["q"]).restricted.put ["q", ".kbridge"] .directory).put
    ["q", ".kbridge", "project.json"] (.file (.plain bytes) .plain)

/-- The configuration of such a project may be written, whatever the bytes are. -/
theorem allows_configuredFiles (bytes : Bytes) :
    ∀ file ∈ (configuredFiles bytes).fileAt? ⟨"/q/.kbridge/project.json"⟩,
      (configuredFiles bytes).allows file.2 = true := by
  have hfile : (configuredFiles bytes).fileAt? ⟨"/q/.kbridge/project.json"⟩ =
      some (.plain bytes, .plain) := rfl
  intro file hmem
  obtain rfl := Option.some.inj (hfile.symm.trans hmem)
  rfl

/-- The ledger of such a project opens, whatever the bytes are. -/
theorem openFile_configuredFiles (bytes : Bytes) :
    (configuredFiles bytes).IsTree ∧ canonicalRoot (configuredFiles bytes) "/q" = ⟨"/q"⟩ ∧
      (configuredFiles bytes).read ⟨"/q/.kbridge/project.json"⟩ = .ok bytes ∧
      Ledger.openFile (configuredFiles bytes) ⟨"/q/runs.db"⟩ =
        (.ok (.file ["q", "runs.db"] 0 false),
          Ledger.putStore (configuredFiles bytes) ["q", "runs.db"] ⟨1, some ⟨[], 0⟩⟩) ∧
      ((configuredFiles bytes).erase ["q", "runs.db-journal"]).fileAt?
        ⟨"/q/.kbridge/project.json"⟩ =
          (configuredFiles bytes).fileAt? ⟨"/q/.kbridge/project.json"⟩ := by
  refine ⟨Files.isTree_of_entries (of_decide_eq_true rfl), ?_, ?_, ?_, ?_⟩ <;> rfl

/-- A target with the name of another one is not added, and the configuration is as it was. -/
theorem addTargets_saves_iff_valid_refused :
    ∃ files answer after, files = configuredFiles (Text.toBytes oneTarget.render) ∧
      files.IsTree ∧ addTargets "/q" [sameName] files = (answer, after) ∧ answer.failure ≠ none ∧
      after.fileAt? ⟨"/q/.kbridge/project.json"⟩ =
        files.fileAt? ⟨"/q/.kbridge/project.json"⟩ := by
  obtain ⟨htree, hroot, hread, hledger, hjournal⟩ :=
    openFile_configuredFiles (Text.toBytes oneTarget.render)
  have hwritable := allows_configuredFiles (Text.toBytes oneTarget.render)
  generalize hfiles : configuredFiles (Text.toBytes oneTarget.render) = files at *
  have hopen := Project.openAt_of_load (load_oneTarget hread) hledger
  rw [← hroot] at hopen
  rcases hadd : addTargets "/q" [sameName] files with ⟨answer, after⟩
  obtain ⟨hiff, -, hkept⟩ := addTargets_saves_iff_valid htree hopen (fun journal hmem => by
    obtain rfl := List.mem_singleton.mp hmem
    rw [hroot, configPath_eq]
    exact hjournal) hadd
  have hfailure : answer.failure ≠ none := by
    obtain ⟨e, hinvalid⟩ := exists_validate_extend_sameName
    rw [ne_eq, hiff (by rwa [hroot, configPath_eq]), hroot, hinvalid]
    simp
  rw [hroot, configPath_eq] at hkept
  exact ⟨files, answer, after, rfl, htree, hadd, hfailure, hkept hfailure⟩

/-- A project whose configuration is a link to where the journal of its ledger is to be, with bytes
there. -/
def linkedFiles (bytes : Bytes) : Files :=
  (((Files.empty ["q"]).put ["q", ".kbridge"] .directory).put ["q", ".kbridge", "project.json"]
    (.link "/q/runs.db-journal")).put ["q", "runs.db-journal"] (.file (.plain bytes) .plain)

/-- Such a project with a new ledger, for which a journal has come and gone. -/
def unlinkedFiles (bytes : Bytes) : Files :=
  Ledger.putStore ((linkedFiles bytes).erase ["q", "runs.db-journal"]) ["q", "runs.db"]
    ⟨1, some ⟨[], 0⟩⟩

/-- The ledger of such a project opens, and the bytes are gone. -/
theorem openFile_linkedFiles (first : UInt8) (rest : Bytes) :
    (linkedFiles (first :: rest)).IsTree ∧
      canonicalRoot (linkedFiles (first :: rest)) "/q" = ⟨"/q"⟩ ∧
      (linkedFiles (first :: rest)).read ⟨"/q/.kbridge/project.json"⟩ = .ok (first :: rest) ∧
      Ledger.openFile (linkedFiles (first :: rest)) ⟨"/q/runs.db"⟩ =
        (.ok (.file ["q", "runs.db"] 0 false), unlinkedFiles (first :: rest)) ∧
      (unlinkedFiles (first :: rest)).read ⟨"/q/.kbridge/project.json"⟩ = .error .notFound := by
  refine ⟨Files.isTree_of_entries (of_decide_eq_true rfl), ?_, ?_, ?_, ?_⟩ <;> rfl

theorem exists_render_eq_cons : ∃ first rest, Text.toBytes oneTarget.render = first :: rest := by
  refine List.exists_cons_of_ne_nil fun hnil => ?_
  have hempty : oneTarget.render = "" := by
    rw [← Option.some_inj, ← Text.ofBytes?_toBytes, hnil]
    decide +kernel
  have hnone : Config.parse "" = .error { message := "<json>" } := by decide +kernel
  have hparse := oneTarget.parse_render
  rw [hempty, hnone] at hparse
  exact absurd hparse (by simp)

/-- **A refused target that takes the configuration along**: opening the ledger takes away what is
in the place of its journal, and the configuration is a link to that. -/
theorem refused_target_loses_config :
    (linkedFiles (Text.toBytes oneTarget.render)).IsTree ∧
    (Project.openAt (linkedFiles (Text.toBytes oneTarget.render)) ⟨"/q"⟩).1.isOk = true ∧
    ∃ answer after, addTargets "/q" [sameName] (linkedFiles (Text.toBytes oneTarget.render)) =
        (answer, after) ∧ answer.failure ≠ none ∧
      (linkedFiles (Text.toBytes oneTarget.render)).read ⟨"/q/.kbridge/project.json"⟩ =
        .ok (Text.toBytes oneTarget.render) ∧
      after.read ⟨"/q/.kbridge/project.json"⟩ = .error .notFound := by
  obtain ⟨first, rest, hbytes⟩ := exists_render_eq_cons
  obtain ⟨htree, hroot, hread, hledger, hgone⟩ := openFile_linkedFiles first rest
  rw [← hbytes] at htree hroot hread hledger hgone
  generalize linkedFiles (Text.toBytes oneTarget.render) = files at *
  have hopen := Project.openAt_of_load (load_oneTarget hread) hledger
  obtain ⟨e, hinvalid⟩ := exists_validate_extend_sameName
  have hopened : (Project.openAt files ⟨"/q"⟩).1.isOk = true := by rw [hopen]; rfl
  rw [← hroot] at hopen hinvalid
  obtain ⟨failure, hfailed⟩ := addTargets_of_invalid hopen hinvalid
  exact ⟨htree, hopened, _, _, hfailed, by simp [Answer.failed], hread, hgone⟩

end CommandLine

end KernelCatalog
