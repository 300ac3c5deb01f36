import KernelCatalog.Proofs.Ledger.Keep
import KernelCatalog.Proofs.Files.Touch

/-!
# Ledgers that take another run

A ledger that has taken a run takes the next one: its table is there, it can be written, and there
is no journal beside it. It stays ready as long as its file is the same and no journal comes.

* `Handle.store_of_undisturbed`: what a ledger holds is told by its file and its journal.
* `Handle.ready_of_insert`: a ledger that has taken a run is ready.
* `Handle.insert_of_ready`: a ledger that is ready takes a run.
-/

namespace KernelCatalog.Ledger

namespace Handle

/-- The place of the journal of an open ledger in a file. -/
def journals (handle : Handle) : List Location := handle.places.tail

/-- What was taken away from the place of an open ledger since it was opened. -/
def removed? : Handle → Files → Option Node
  | .file location removals _, files => files.removedSince? removals location
  | _, _ => none

/-- A change of the tree that leaves a ledger alone: its file is the same and was not replaced, and
there is in the place of its journal what was there. -/
structure Undisturbed (handle : Handle) (before after : Files) : Prop where
  removed_eq : handle.removed? after = handle.removed? before
  file_eq : ∀ location ∈ handle.places, after.fileIn? location = before.fileIn? location
  journal_eq : ∀ journal ∈ handle.journals, after.get? journal = before.get? journal

instance (handle : Handle) (before after : Files) : Decidable (handle.Undisturbed before after) :=
  decidable_of_iff (handle.removed? after = handle.removed? before ∧
    (∀ location ∈ handle.places, after.fileIn? location = before.fileIn? location) ∧
    ∀ journal ∈ handle.journals, after.get? journal = before.get? journal)
    ⟨fun ⟨hremoved, hfile, hjournal⟩ => ⟨hremoved, hfile, hjournal⟩,
      fun h => ⟨h.removed_eq, h.file_eq, h.journal_eq⟩⟩

/-- A ledger is left alone by what neither writes to it nor touches its journal. -/
theorem undisturbed_of_keeps {handle : Handle} {before after : Files}
    {written touched : List Location} (hkept : before.Keeps written after)
    (htouched : before.Touches touched after)
    (hwritten : ∀ location ∈ handle.places, location ∉ written)
    (hjournal : ∀ journal ∈ handle.journals, journal ∉ touched) :
    handle.Undisturbed before after where
  removed_eq := by
    cases handle with
    | file location removals readOnly =>
      rw [removed?, removed?, Files.removedSince?, Files.removedSince?, htouched.removed_eq]
    | _ => rfl
  file_eq location hmem := hkept.file location (hwritten location hmem)
  journal_eq journal hmem := htouched.get?_eq journal (hjournal journal hmem)

/-! ## What a ledger holds -/

theorem nodeStore_congr {before after : Files} {location : Location}
    (h : after.fileIn? location = before.fileIn? location) :
    nodeStore (after.get? location) = nodeStore (before.get? location) := by
  have hnode : ∀ files : Files, nodeStore (files.get? location) =
      match files.fileIn? location with
      | some (content, _) => contentStore content
      | none => .error .cannotOpen := by
    intro files
    unfold Files.fileIn?
    rcases files.get? location with _ | (_ | _ | _) <;> rfl
  rw [hnode, hnode, h]

/-- Dealing with a journal leaves the store in the file. -/
theorem nodeStore_of_settle {files settled : Files} {location : Location} {readOnly : Bool}
    (h : settle files location readOnly = .ok settled) :
    nodeStore (settled.get? location) = nodeStore (files.get? location) := by
  rcases of_settle_eq_ok h with rfl | rfl
  · rfl
  · rw [Files.get?_erase _ (journalAt_ne_nil location), isPrefixOf_journalAt]
    rfl

/-- A file is empty if it holds no bytes. -/
theorem isEmptyFile_iff_fileIn? {files : Files} {location : Location} :
    isEmptyFile files location = true ↔
      ∃ permissions, files.fileIn? location = some (.plain [], permissions) := by
  unfold isEmptyFile Files.fileIn?
  rcases files.get? location with _ | (_ | ⟨(_ | _) | _, _⟩ | _) <;> simp

/-- A journal is dealt with by what is in its place, and by whether the file is empty. -/
theorem settle_congr {before after : Files} {location : Location} (readOnly : Bool)
    (hfile : after.fileIn? location = before.fileIn? location)
    (hjournal : after.get? (journalAt location) = before.get? (journalAt location)) :
    (settle after location readOnly).map (fun _ => ()) =
      (settle before location readOnly).map fun _ => () := by
  have hempty : isEmptyFile after location = isEmptyFile before location := by
    rw [Bool.eq_iff_iff, isEmptyFile_iff_fileIn?, isEmptyFile_iff_fileIn?, hfile]
  unfold settle
  dsimp only
  rw [hjournal, hempty]
  split
  · rfl
  · split
    · rfl
    · split
      · rfl
      · split
        · rfl
        · split <;> rfl
  · rfl

/-- **A ledger that is left alone holds what it held.** -/
theorem store_of_undisturbed {handle : Handle} {before after : Files}
    (h : handle.Undisturbed before after) : handle.store after = handle.store before := by
  cases handle with
  | memory store => rfl
  | fixed store => rfl
  | file location removals readOnly =>
    have hfile := h.file_eq location (by simp [places])
    have hjournal := h.journal_eq (journalAt location) (by simp [journals, places])
    have hremoved : after.removedSince? removals location =
        before.removedSince? removals location := h.removed_eq
    have hhas : hasJournal after location = hasJournal before location := by
      rw [hasJournal, hasJournal, isEmptyFile, isEmptyFile, hjournal]
    cases hsince : before.removedSince? removals location with
    | some node => simp only [store, hremoved, hsince, hhas]
    | none =>
      -- the journal is dealt with in the same way, which does not concern the store
      have hsettle := settle_congr readOnly hfile hjournal
      cases hbefore : settle before location readOnly with
      | error e =>
        rw [hbefore] at hsettle
        cases hafter : settle after location readOnly with
        | error other =>
          rw [hafter] at hsettle
          obtain rfl := Except.error.inj hsettle
          simp [store, hremoved, hsince, hbefore, hafter, bind, Except.bind]
        | ok settled =>
          rw [hafter] at hsettle
          exact absurd hsettle (by simp [Except.map])
      | ok settled =>
        rw [hbefore] at hsettle
        cases hafter : settle after location readOnly with
        | error e =>
          rw [hafter] at hsettle
          exact absurd hsettle (by simp [Except.map])
        | ok other =>
          rw [store_file (hremoved.trans hsince) hafter, store_file hsince hbefore,
            nodeStore_of_settle hafter, nodeStore_of_settle hbefore, nodeStore_congr hfile]

theorem rows_of_undisturbed {handle : Handle} {before after : Files}
    (h : handle.Undisturbed before after) : handle.rows after = handle.rows before := by
  rw [rows, rows, store_of_undisturbed h]

/-! ## Ready ledgers -/

/-- A ledger that can take a run. -/
inductive Ready : Handle → Files → Prop where
  | memory {files : Files} {store : Store} {table : Table} (table_eq : store.table = some table) :
      Ready (.memory store) files
  | file {files : Files} {location : Location} {removals : Nat} {store : Store} {table : Table}
      {permissions : Permissions} (removed : files.removedSince? removals location = none)
      (held : files.fileIn? location = some (.ledger store, permissions))
      (table_eq : store.table = some table)
      (journal : files.get? (journalAt location) = none)
      (name : ((journalAt location).getLast?.getD "").utf8ByteSize ≤ Files.nameLimit) :
      Ready (.file location removals false) files

theorem Ready.of_undisturbed {handle : Handle} {before after : Files}
    (hready : handle.Ready before) (h : handle.Undisturbed before after) :
    handle.Ready after := by
  cases hready with
  | memory htable => exact .memory htable
  | @file _ location removals store table permissions hremoved hheld htable hjournal hname =>
    exact .file (h.removed_eq.trans hremoved)
      ((h.file_eq location (by simp [places])).trans hheld) htable
      ((h.journal_eq _ (by simp [journals, places])).trans hjournal) hname

/-- The journal of a write has a name that is not too long. -/
theorem name_le_of_journaled {files after : Files} {location : Location}
    (h : journaled files location = .ok after) :
    ((journalAt location).getLast?.getD "").utf8ByteSize ≤ Files.nameLimit := by
  unfold journaled at h
  dsimp only at h
  split at h
  · exact absurd h (by simp)
  · next hname => exact Nat.le_of_not_lt hname

/-- **A ledger that has taken a run is ready.** -/
theorem ready_of_insert {handle written : Handle} {files after : Files} {run : Run} {id : Nat}
    (h : handle.insert files run = .ok (id, written, after)) : written.Ready after := by
  obtain ⟨store, table, hstore, htable, rfl, hset⟩ := insert_eq_ok_iff.mp h
  cases handle with
  | memory old =>
    obtain ⟨rfl, rfl⟩ := Prod.mk.inj (Except.ok.inj hset)
    exact .memory rfl
  | fixed old => exact absurd hset (by simp [setStore])
  | file location removals readOnly =>
    have hwritable : readOnly = false := by
      cases readOnly with
      | false => rfl
      | true =>
        simp only [setStore] at hset
        split at hset <;> exact absurd hset (by simp)
    obtain ⟨rfl, hremoved, settled, hsettle, hafter⟩ := of_setStore_file hset
    have hsettled := removedSince?_of_journal (of_settle_eq_ok hsettle) hremoved
    rw [store_file hremoved hsettle] at hstore
    have hlocation : location ≠ [] := by
      rintro rfl
      exact absurd hstore (by simp [Files.get?, nodeStore])
    rcases hafter with ⟨hsame, -⟩ | ⟨ready, hready, rfl⟩
    · -- the file would hold the new row already
      obtain ⟨permissions, hfile⟩ := holdsStore_iff.mp hsame
      rw [hfile] at hstore
      have htables := congrArg Store.table (Except.ok.inj hstore)
      rw [htable] at htables
      have hlast := congrArg Table.lastId (Option.some.inj htables)
      exact absurd hlast (Nat.succ_ne_self table.lastId)
    · obtain ⟨hjournal, hgone⟩ := of_journaled_eq_ok hready
      have hremoved := removedSince?_of_journal hgone hsettled
      obtain ⟨permissions, hstored⟩ := exists_putStore ready location
        { store with table := some ⟨Row.ofRun (table.lastId + 1) run :: table.rows,
          table.lastId + 1⟩ }
      rw [hstored]
      have hput := ready.get?_put hlocation (.file (.ledger
        { store with table := some ⟨Row.ofRun (table.lastId + 1) run :: table.rows,
          table.lastId + 1⟩ }) permissions)
      have hheld := (hput location).trans (if_pos rfl)
      rw [hwritable]
      refine .file hremoved (Files.fileIn?_eq_some_iff.mpr hheld) rfl ?_
        (name_le_of_journaled hready)
      exact ((hput _).trans (if_neg (ne_journalAt location).symm)).trans hjournal

/-- **A ledger that is ready takes a run.** -/
theorem insert_of_ready {handle : Handle} {files : Files} (h : handle.Ready files) (run : Run) :
    ∃ id written after, handle.insert files run = .ok (id, written, after) := by
  cases h with
  | memory htable => exact ⟨_, _, _, insert_eq_ok_iff.mpr ⟨_, _, rfl, htable, rfl, rfl⟩⟩
  | @file _ location removals store table permissions hremoved hheld htable hjournal hname =>
    have hsettle := settle_of_no_journal hjournal false
    have hstore : (Handle.file location removals false).store files = .ok store := by
      rw [store_file hremoved hsettle, Files.fileIn?_eq_some_iff.mp hheld]
      rfl
    have hjournaled : journaled files location = .ok files := by
      simp [journaled, hjournal, Nat.not_lt.mpr hname]
    obtain ⟨written, after, hwritten⟩ := exists_setStore_file hremoved hsettle hjournaled _
    exact ⟨_, written, after, insert_eq_ok_iff.mpr ⟨_, _, hstore, htable, rfl, hwritten⟩⟩

end Handle

end KernelCatalog.Ledger
