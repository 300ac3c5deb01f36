import KernelCatalog.Proofs.Ledger.History
import KernelCatalog.Proofs.Pairing

/-!
# Versions of ledgers

A ledger with a newer version than this program is refused, and its file stays as it is. Any other
opens. One of version 0 gets its table and the version that is needed; one that has that version
already is used as it is. But the oldest version is not looked at: a ledger with a negative version
opens, and has no table to answer from.

* `Stored`: a path leads to a ledger file that can be written.
* `Stored.openFile_of_newer`: a newer ledger is refused.
* `Stored.exists_openFile`: any other opens.
* `Records.answers`: a ledger with a history answers.
* `openFile_decides_version`: what becomes of a ledger of any version.
-/

namespace KernelCatalog.Ledger

/-! ## Answers -/

/-- **A ledger with a history answers**: all runs are listed if the earlier rows keep runs, and
those of a target if its earlier rows do. -/
theorem Records.answers {earlier : List Row} {log : List (Nat × Run)} {session : Session}
    (h : Records earlier log session) :
    ((∀ row ∈ earlier, ∃ run, row.run = .ok run) →
        ∃ runs, session.handle.runs session.files none = .ok runs) ∧
      ∀ target, (∀ row ∈ earlier, row.target = target → ∃ run, row.run = .ok run) →
        ∃ runs, session.handle.runs session.files (some target) = .ok runs ∧
          session.handle.latest session.files target = .ok runs.head? := by
  obtain ⟨hall, hsome⟩ := h.runs_eq
  have htaken : ∀ row ∈ (log.map fun taken => Row.ofRun taken.1 taken.2).reverse,
      ∃ run, row.run = .ok run := by
    intro row hmem
    obtain ⟨taken, -, rfl⟩ := List.mem_map.mp (List.mem_reverse.mp hmem)
    exact ⟨taken.2, Row.run_ofRun taken.1 taken.2⟩
  refine ⟨fun hearlier => ?_, fun target hearlier => ?_⟩
  · rw [hall]
    refine Pairing.exists_mapM_eq_ok_iff.mpr fun row hmem => ?_
    rcases List.mem_append.mp hmem with hmem | hmem
    · exact htaken row hmem
    · exact hearlier row hmem
  · have hlisted : ∃ runs, session.handle.runs session.files (some target) = .ok runs := by
      rw [hsome]
      refine Pairing.exists_mapM_eq_ok_iff.mpr fun row hmem => ?_
      obtain ⟨hmem, hhit⟩ := List.mem_filter.mp hmem
      rcases List.mem_append.mp hmem with hmem | hmem
      · exact htaken row hmem
      · exact hearlier row hmem (eq_of_beq hhit)
    obtain ⟨runs, hruns⟩ := hlisted
    exact ⟨runs, hruns, h.latest_eq hruns⟩

/-- A ledger without a table takes no run and lists none. -/
theorem error_of_no_table {handle : Handle} {files : Files} {store : Store}
    (hstore : handle.store files = .ok store) (htable : store.table = none) :
    (∀ run, handle.insert files run = .error .noTable) ∧
      (∀ target, handle.runs files target = .error .noTable) ∧
      ∀ target, handle.latest files target = .error .noTable := by
  refine ⟨fun run => ?_, fun target => ?_, fun target => ?_⟩
  · simp [Handle.insert, Handle.update, hstore, Store.insert, htable, bind, Except.bind]
  · simp [Handle.runs, hstore, Store.runs, Store.rows, htable, bind, Except.bind]
  · simp [Handle.latest, hstore, Store.latest, Store.rows, htable, bind, Except.bind]

/-! ## Stored ledgers -/

/-- A path leads to a ledger file that can be written. -/
structure Stored (files : Files) (path : Path) (location : Location) (store : Store) : Prop where
  connects : connect files path = (.ok (.file location files.removed.length false), files)
  held : nodeStore (files.get? location) = .ok store
  unblocked : (Handle.file location files.removed.length false).Unblocked files

/-- The journal of a ledger that can be written is dealt with, unless it is a directory. -/
theorem exists_settle {files : Files} {location : Location}
    (h : files.get? (journalAt location) ≠ some .directory) :
    ∃ settled, settle files location false = .ok settled := by
  unfold settle
  dsimp only
  split
  · next hdirectory _ => exact absurd hdirectory h
  · split
    · exact ⟨_, rfl⟩
    · simp only [Bool.false_eq_true, if_false]
      split_ifs <;> exact ⟨_, rfl⟩
  · exact ⟨_, rfl⟩

namespace Stored

variable {files : Files} {path : Path} {location : Location} {store current : Store}

/-- A ledger holds the store in its file when a connection was made. -/
theorem store_eq (h : Stored files path location store) :
    (Handle.file location files.removed.length false).store files = .ok store := by
  have hjournal := (h.unblocked (journalAt location) (by simp [Handle.journals, Handle.places])).2
  exact (Handle.store_file_eq_ok_iff (removedSince?_now files location)).mpr
    ⟨exists_settle hjournal, h.held⟩

/-- **A ledger with a newer version is refused**, and its file stays as it is. -/
theorem openFile_of_newer (h : Stored files path location store)
    (hversion : currentVersion < store.version) :
    ∃ after, openFile files path = (.error (.unsupportedVersion store.version), after) ∧
      (after = files ∨ after = files.erase (journalAt location)) ∧
      after.get? location = files.get? location := by
  have hmigrate : (Handle.file location files.removed.length false).migrate files =
      .error (.unsupportedVersion store.version) := by
    rw [Handle.migrate, h.store_eq]
    simp [bind, Except.bind, Store.migrate, hversion]
  have hjournal := (h.unblocked (journalAt location) (by simp [Handle.journals, Handle.places])).2
  obtain ⟨settled, hsettle⟩ := exists_settle hjournal
  have hopen : openFile files path = (.error (.unsupportedVersion store.version), settled) := by
    rw [openFile, h.connects]
    simp only [hmigrate, Handle.settled_file (removedSince?_now files location) hsettle]
  refine ⟨settled, hopen, of_settle_eq_ok hsettle, ?_⟩
  rcases of_settle_eq_ok hsettle with rfl | rfl
  · rfl
  · rw [Files.get?_erase _ (journalAt_ne_nil location), isPrefixOf_journalAt]
    rfl

/-- **A ledger that can be brought to the version that is needed opens.** -/
theorem exists_openFile (h : Stored files path location store)
    (hmigrate : store.migrate = .ok current) :
    ∃ handle after, openFile files path = (.ok handle, after) ∧ handle.InPlace after ∧
      handle.store after = .ok current ∧ handle.Unblocked after := by
  have hplace : (Handle.file location files.removed.length false).InPlace files :=
    removedSince?_now files location
  obtain ⟨handle, made, hmade⟩ : ∃ handle made,
      (Handle.file location files.removed.length false).migrate files = .ok (handle, made) := by
    rw [Handle.migrate, h.store_eq]
    simp only [bind, Except.bind, hmigrate]
    split
    · exact ⟨_, _, rfl⟩
    · exact Handle.exists_setStore hplace h.store_eq rfl h.unblocked current
  have hopen : openFile files path = (.ok handle, handle.settled made) := by
    rw [openFile, h.connects]
    simp only [hmade]
  obtain ⟨connected, between, found, next, hconnect, hfound, hnext, hplaces, hagain, hheld⟩ :=
    of_openFile_eq_ok hopen
  obtain ⟨hconnected, rfl⟩ := Prod.mk.inj (h.connects.symm.trans hconnect)
  obtain rfl := Except.ok.inj hconnected
  obtain rfl := Except.ok.inj (h.store_eq.symm.trans hfound)
  obtain rfl := Except.ok.inj (hmigrate.symm.trans hnext)
  refine ⟨handle, handle.settled made, hopen, hagain, hheld, ?_⟩
  refine h.unblocked.of_rewritten (congrArg List.tail hplaces) fun journal hmem => ?_
  obtain rfl : journal = journalAt location := List.mem_singleton.mp hmem
  -- in the place of the journal there is what was there, or nothing
  cases opens_of_openFile hopen with
  | memory => exact absurd hplaces (by simp [Handle.places])
  | fixed => exact absurd hplaces (by simp [Handle.places])
  | @file place _ _ gone _ _ _ _ _ hrewritten =>
    obtain rfl : place = location := (List.cons.inj hplaces).1
    rw [hrewritten.get?_eq _ (ne_journalAt place).symm]
    split
    · exact Or.inl rfl
    · exact Or.inr rfl

end Stored

/-! ## Versions -/

theorem Handle.version_of_store {handle : Handle} {files : Files} {store : Store}
    (hstore : handle.store files = .ok store) : handle.version files = .ok store.version := by
  rw [version, hstore]
  rfl

/-- A store that is older than the oldest version is left alone. -/
theorem Store.migrate_of_older {store : Store} (hold : store.version < oldestVersion) :
    store.migrate = .ok store := by
  simp only [oldestVersion] at hold
  rw [migrate, if_neg (by simp only [currentVersion]; omega), if_neg (by omega)]

/-- A store of a version that is supported comes to the version that is needed, with a table that
has the rows that were there: version 0 gets a table, and version 1 has one. -/
theorem Store.exists_migrate_of_supported {store : Store}
    (htable : store.table.isSome ↔ store.version = currentVersion)
    (hold : oldestVersion ≤ store.version) (hnew : store.version ≤ currentVersion) :
    ∃ table, store.migrate = .ok ⟨currentVersion, some table⟩ ∧
      table.rows = (store.table.map Table.rows).getD [] := by
  rw [migrate, if_neg (by omega)]
  split
  · exact ⟨_, rfl, by cases store.table <;> rfl⟩
  · next hnonzero =>
    have hnow : store.version = currentVersion := by
      simp only [oldestVersion, currentVersion] at *
      omega
    obtain ⟨table, hsome⟩ := Option.isSome_iff_exists.mp (htable.mpr hnow)
    exact ⟨table, by rw [← hnow, ← hsome], by rw [hsome]; rfl⟩

/-- **What becomes of a ledger of any version.** A newer one is refused, and its file stays as it
is; any other opens. One that is not older than the oldest version then has the version that is
needed and a table with the rows that were there, and whatever happens to it, it takes the next run
and lists its runs. One that is older keeps its version; it takes no run and lists none. -/
theorem openFile_decides_version {files : Files} {path : Path} {location : Location} {store : Store}
    (h : Stored files path location store)
    (htable : store.table.isSome ↔ store.version = currentVersion) :
    (currentVersion < store.version → ∃ after,
      openFile files path = (.error (.unsupportedVersion store.version), after) ∧
        (after = files ∨ after = files.erase (journalAt location)) ∧
        after.get? location = files.get? location) ∧
    (store.version ≤ currentVersion → ∃ handle after, openFile files path = (.ok handle, after) ∧
      (oldestVersion ≤ store.version → handle.version after = .ok currentVersion ∧
        ∃ table, handle.store after = .ok ⟨currentVersion, some table⟩ ∧
          table.rows = (store.table.map Table.rows).getD [] ∧
          ∀ log last, Uses ⟨handle, after⟩ log last →
            (last.handle.isReadOnly = false → ∀ run, ∃ id written next,
              last.handle.insert last.files run = .ok (id, written, next)) ∧
            ((∀ row ∈ table.rows, ∃ run, row.run = .ok run) →
              ∃ runs, last.handle.runs last.files none = .ok runs) ∧
            ∀ target, (∀ row ∈ table.rows, row.target = target → ∃ run, row.run = .ok run) →
              ∃ runs, last.handle.runs last.files (some target) = .ok runs ∧
                last.handle.latest last.files target = .ok runs.head?) ∧
      (store.version < oldestVersion → handle.version after = .ok store.version ∧
        (∀ run, handle.insert after run = .error .noTable) ∧
        (∀ target, handle.runs after target = .error .noTable) ∧
        ∀ target, handle.latest after target = .error .noTable)) := by
  refine ⟨h.openFile_of_newer, fun hversion => ?_⟩
  by_cases hsupported : oldestVersion ≤ store.version
  · obtain ⟨table, hmigrate, hrows⟩ := Store.exists_migrate_of_supported htable hsupported hversion
    obtain ⟨handle, after, hopen, hplace, hstore, hfree⟩ := h.exists_openFile hmigrate
    refine ⟨handle, after, hopen,
      fun _ => ⟨Handle.version_of_store hstore, table, hstore, hrows, fun log last huses => ?_⟩,
      fun hold => absurd hsupported (Int.not_le.mpr hold)⟩
    -- opening starts a history with the rows that were there
    have hstart : Records table.rows [] ⟨handle, after⟩ := Records.of_table hplace hstore rfl
    have hrecords := huses.records hstart
    exact ⟨fun hwritable => hrecords.exists_insert hwritable (huses.unblocked hstart hfree),
      hrecords.answers⟩
  · have hold : store.version < oldestVersion := Int.not_le.mp hsupported
    obtain ⟨handle, after, hopen, -, hstore, -⟩ := h.exists_openFile (Store.migrate_of_older hold)
    have hnone : store.table = none := by
      rw [← Option.not_isSome_iff_eq_none, htable]
      simp only [oldestVersion, currentVersion] at *
      omega
    exact ⟨handle, after, hopen, fun h => absurd h hsupported,
      fun _ => ⟨Handle.version_of_store hstore, error_of_no_table hstore hnone⟩⟩

/-- A directory with a ledger file. -/
def storedFiles (store : Store) : Files :=
  putStore (Files.empty ["p"]) ["p", "runs.db"] store

/-- A ledger with a row is opened and takes a run. -/
theorem openFile_decides_version_supported :
    Stored (storedFiles ⟨1, some ⟨[.ofRun 1 wideRun], 1⟩⟩) ⟨"/p/runs.db"⟩ ["p", "runs.db"]
        ⟨1, some ⟨[.ofRun 1 wideRun], 1⟩⟩ ∧
      ∃ handle after, openFile (storedFiles ⟨1, some ⟨[.ofRun 1 wideRun], 1⟩⟩) ⟨"/p/runs.db"⟩ =
          (.ok handle, after) ∧
        handle.version after = .ok currentVersion := by
  have hstored : Stored (storedFiles ⟨1, some ⟨[.ofRun 1 wideRun], 1⟩⟩) ⟨"/p/runs.db"⟩
      ["p", "runs.db"] ⟨1, some ⟨[.ofRun 1 wideRun], 1⟩⟩ := by
    refine ⟨rfl, rfl, fun journal hmem => ?_⟩
    obtain rfl := List.mem_singleton.mp hmem
    exact ⟨by decide +kernel, by decide +kernel⟩
  refine ⟨hstored, ?_⟩
  obtain ⟨handle, after, hopen, hsupported, -⟩ :=
    (openFile_decides_version hstored (by decide)).2 (by decide)
  exact ⟨handle, after, hopen, (hsupported (by decide)).1⟩

/-- **The oldest version is not looked at.** A ledger with a version below the versions that are
supported opens, keeps its version, and takes no run. -/
theorem negative_version_opens : (-1 : Int) < oldestVersion ∧
    openFile (storedFiles ⟨-1, none⟩) ⟨"/p/runs.db"⟩ =
      (.ok (.file ["p", "runs.db"] 0 false), storedFiles ⟨-1, none⟩) ∧
    (Handle.file ["p", "runs.db"] 0 false).version (storedFiles ⟨-1, none⟩) = .ok (-1) ∧
    (Handle.file ["p", "runs.db"] 0 false).insert (storedFiles ⟨-1, none⟩) wideRun =
      .error .noTable :=
  ⟨by decide, rfl, rfl, rfl⟩

end KernelCatalog.Ledger
