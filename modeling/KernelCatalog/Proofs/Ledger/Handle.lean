import KernelCatalog.Ledger.Handle

/-!
# Writing to an open ledger

What is written to an open ledger is what it holds afterwards. For a ledger in a file this needs
that the journal lies beside the file, so that dealing with the journal leaves the file where it
is.

* `Handle.store_setStore`: a store that is written is read back.
* `Handle.of_insert_eq_ok`: a run that is added stands in front of the rows that were there before.
-/

namespace KernelCatalog

/-- A computation that gives a result does so through a result of its first part. -/
theorem of_bind_eq_ok {ε α β : Type} {first : Except ε α} {rest : α → Except ε β} {b : β}
    (h : first >>= rest = .ok b) : ∃ a, first = .ok a ∧ rest a = .ok b := by
  cases first with
  | error e => exact absurd h (by simp [bind, Except.bind])
  | ok a => exact ⟨a, rfl, h⟩

namespace Files

/-- Dropping the entries of some places leaves what is found at the others. -/
theorem lookup_filter_not (drops : Location → Bool) (entries : List (Location × Node))
    (location : Location) :
    (entries.filter fun entry => !drops entry.1).lookup location =
      if drops location then none else entries.lookup location := by
  induction entries with
  | nil => simp
  | cons entry rest ih =>
    obtain ⟨place, node⟩ := entry
    by_cases heq : location = place
    · subst heq
      by_cases hdrops : drops location = true
      · rw [List.filter_cons_of_neg (by simp [hdrops]), ih, if_pos hdrops, if_pos hdrops]
      · rw [List.filter_cons_of_pos (by simp [hdrops]), List.lookup_cons_self,
          List.lookup_cons_self, if_neg hdrops]
    · have hne : (location == place) = false := beq_eq_false_iff_ne.mpr heq
      by_cases hdrops : drops place = true
      · rw [List.filter_cons_of_neg (by simp [hdrops]), ih, List.lookup_cons, hne]
      · rw [List.filter_cons_of_pos (by simp [hdrops]), List.lookup_cons, hne, ih,
          List.lookup_cons, hne]

theorem get?_erase (files : Files) {location : Location} (h : location ≠ []) (other : Location) :
    (files.erase location).get? other =
      if location.isPrefixOf other then none else files.get? other := by
  cases other with
  | nil =>
    cases location with
    | nil => exact absurd rfl h
    | cons name rest => rfl
  | cons name rest => exact lookup_filter_not location.isPrefixOf files.entries (name :: rest)

/-- Erasing another place takes nothing away from a place. -/
theorem removedSince?_erase {files : Files} {count : Nat} {location other : Location}
    (hother : other.isPrefixOf location = false) (h : files.removedSince? count location = none) :
    (files.erase other).removedSince? count location = none := by
  unfold removedSince? at h ⊢
  rw [erase, List.reverse_append, List.drop_append, List.lookup_append, h, Option.none_or,
    List.lookup_eq_none_iff]
  intro entry hentry
  have hmem := List.mem_filter.mp (List.mem_reverse.mp (List.mem_of_mem_drop hentry))
  rw [bne_iff_ne]
  rintro rfl
  rw [hother] at hmem
  exact absurd hmem.2 (by simp)

end Files

namespace Ledger

/-! ## The journal beside a file -/

theorem journalAt_ne_nil (location : Location) : journalAt location ≠ [] := by
  simp [journalAt]

/-- The journal is not the file, and the file is not below the journal. -/
theorem isPrefixOf_journalAt (location : Location) :
    (journalAt location).isPrefixOf location = false := by
  rw [Bool.eq_false_iff]
  intro h
  have hprefix := List.isPrefixOf_iff_prefix.mp h
  rcases List.eq_nil_or_concat location with rfl | ⟨front, last, rfl⟩
  · exact absurd (List.prefix_nil.mp hprefix) (journalAt_ne_nil [])
  · have heq : journalAt (front.concat last) = front ++ [last ++ journalEnding] := by
      simp [journalAt]
    rw [heq, List.concat_eq_append] at hprefix
    have hsame := hprefix.eq_of_length (by simp)
    have hlast := List.singleton_inj.mp (List.append_cancel_left hsame)
    have hlength := congrArg String.length hlast
    rw [String.length_append] at hlength
    have hending : journalEnding.length = 8 := rfl
    omega

/-- Dealing with a journal leaves the tree as it is or takes the journal away. -/
theorem of_settle_eq_ok {files settled : Files} {location : Location} {readOnly : Bool}
    (h : settle files location readOnly = .ok settled) :
    settled = files ∨ settled = files.erase (journalAt location) := by
  unfold settle at h
  grind

/-- Without a journal there is nothing to deal with. -/
theorem settle_of_no_journal {files : Files} {location : Location}
    (h : files.get? (journalAt location) = none) (readOnly : Bool) :
    settle files location readOnly = .ok files := by
  simp [settle, h]

/-- A journal is dealt with once. -/
theorem settle_settled {files settled : Files} {location : Location} {readOnly : Bool}
    (h : settle files location readOnly = .ok settled) :
    settle settled location readOnly = .ok settled := by
  rcases of_settle_eq_ok h with rfl | rfl
  · exact h
  · refine settle_of_no_journal ?_ readOnly
    rw [Files.get?_erase _ (journalAt_ne_nil location), if_pos (by simp)]

/-- After a write there is no journal. -/
theorem of_journaled_eq_ok {files after : Files} {location : Location}
    (h : journaled files location = .ok after) :
    after.get? (journalAt location) = none ∧
      (after = files ∨ after = files.erase (journalAt location)) := by
  unfold journaled at h
  dsimp only at h
  split at h
  · exact absurd h (by simp)
  · split at h
    · exact absurd h (by simp)
    · obtain rfl := Except.ok.inj h
      exact ⟨by rw [Files.get?_erase _ (journalAt_ne_nil location), if_pos (by simp)], Or.inr rfl⟩
    · next hnone =>
      obtain rfl := Except.ok.inj h
      exact ⟨hnone, Or.inl rfl⟩

/-- Taking the journal away takes nothing away from the place of the file. -/
theorem removedSince?_of_journal {files after : Files} {location : Location} {removals : Nat}
    (hafter : after = files ∨ after = files.erase (journalAt location))
    (h : files.removedSince? removals location = none) :
    after.removedSince? removals location = none := by
  rcases hafter with rfl | rfl
  · exact h
  · exact Files.removedSince?_erase (isPrefixOf_journalAt location) h

/-! ## The file of a store -/

theorem holdsStore_iff {files : Files} {location : Location} {store : Store} :
    holdsStore files location store = true ↔
      ∃ permissions, files.get? location = some (.file (.ledger store) permissions) := by
  grind [holdsStore]

/-- A store is put in place of what is there. -/
theorem exists_putStore (files : Files) (location : Location) (store : Store) :
    ∃ permissions, putStore files location store =
      files.put location (.file (.ledger store) permissions) :=
  ⟨_, rfl⟩

namespace Handle

/-! ## Reading what was written -/

/-- The rows of an open ledger, the newest first. -/
def rows (handle : Handle) (files : Files) : Except StoreError (List Row) := do
  (← handle.store files).rows none

/-- The rows of a ledger with a table are those of the table. -/
theorem rows_of_table {handle : Handle} {files : Files} {store : Store} {table : Table}
    (hstore : handle.store files = .ok store) (htable : store.table = some table) :
    handle.rows files = .ok table.rows := by
  rw [rows, hstore]
  simp [Store.rows, htable, bind, Except.bind]

/-- A ledger in a file that is still there holds what the file holds. -/
theorem store_file {files settled : Files} {location : Location} {removals : Nat} {readOnly : Bool}
    (hremoved : files.removedSince? removals location = none)
    (hsettle : settle files location readOnly = .ok settled) :
    (file location removals readOnly).store files = nodeStore (settled.get? location) := by
  simp only [store, hremoved, hsettle]
  rfl

/-- A store that is put in place of the file is what the ledger holds, if there is no journal. -/
theorem store_putStore {files : Files} {location : Location} {removals : Nat}
    (hremoved : files.removedSince? removals location = none)
    (hjournal : files.get? (journalAt location) = none) (hlocation : location ≠ [])
    (readOnly : Bool) (store : Store) :
    (file location removals readOnly).store (putStore files location store) = .ok store := by
  have hput : (putStore files location store).removedSince? removals location = none := hremoved
  have hne : journalAt location ≠ location := by
    intro heq
    have hprefix := isPrefixOf_journalAt location
    rw [heq, Bool.eq_false_iff] at hprefix
    exact hprefix (List.isPrefixOf_iff_prefix.mpr (List.prefix_refl location))
  have hnone : (putStore files location store).get? (journalAt location) = none := by
    rw [putStore, Files.get?_put _ hlocation, if_neg hne, hjournal]
  obtain ⟨permissions, hfile⟩ := exists_putStore files location store
  rw [store_file hput (settle_of_no_journal hnone readOnly), hfile,
    Files.get?_put _ hlocation, if_pos rfl]
  rfl

/-- How a ledger in a file is written: the journal is dealt with, and the file is replaced unless it
holds the store already. -/
theorem of_setStore_file {location : Location} {removals : Nat} {readOnly : Bool} {files : Files}
    {store : Store} {written : Handle} {after : Files}
    (h : (file location removals readOnly).setStore files store = .ok (written, after)) :
    written = file location removals readOnly ∧ files.removedSince? removals location = none ∧
      ∃ settled, settle files location readOnly = .ok settled ∧
        (holdsStore settled location store = true ∧ after = settled ∨
          ∃ ready, journaled settled location = .ok ready ∧
            after = putStore ready location store) := by
  simp only [setStore] at h
  split at h
  · exact absurd h (by simp)
  · next hremoved =>
    rw [Option.not_isSome_iff_eq_none] at hremoved
    split at h
    · exact absurd h (by simp)
    · obtain ⟨settled, hsettle, h⟩ := of_bind_eq_ok h
      refine ⟨?_, hremoved, settled, hsettle, ?_⟩
      all_goals split at h
      · exact (Prod.mk.inj (Except.ok.inj h)).1.symm
      · obtain ⟨ready, -, h⟩ := of_bind_eq_ok h
        exact (Prod.mk.inj (Except.ok.inj h)).1.symm
      · next hsame => exact Or.inl ⟨hsame, (Prod.mk.inj (Except.ok.inj h)).2.symm⟩
      · obtain ⟨ready, hready, h⟩ := of_bind_eq_ok h
        exact Or.inr ⟨ready, hready, (Prod.mk.inj (Except.ok.inj h)).2.symm⟩

/-- A ledger in a file is written once its journal is dealt with and a new one can be made. -/
theorem exists_setStore_file {location : Location} {removals : Nat} {files settled ready : Files}
    (hremoved : files.removedSince? removals location = none)
    (hsettle : settle files location false = .ok settled)
    (hready : journaled settled location = .ok ready) (store : Store) :
    ∃ written after, (file location removals false).setStore files store = .ok (written, after) := by
  by_cases hsame : holdsStore settled location store = true
  · refine ⟨.file location removals false, settled, ?_⟩
    simp [setStore, hremoved, hsettle, hsame, bind, Except.bind]
  · refine ⟨.file location removals false, putStore ready location store, ?_⟩
    simp [setStore, hremoved, hsettle, hsame, hready, bind, Except.bind]

/-- **A store that is written is read back.** -/
theorem store_setStore {handle written : Handle} {files after : Files} {before store : Store}
    (hbefore : handle.store files = .ok before)
    (h : handle.setStore files store = .ok (written, after)) : written.store after = .ok store := by
  cases handle with
  | memory old =>
    obtain ⟨rfl, rfl⟩ := Prod.mk.inj (Except.ok.inj h)
    rfl
  | fixed old => exact absurd h (by simp [setStore])
  | file location removals readOnly =>
    obtain ⟨rfl, hremoved, settled, hsettle, hafter⟩ := of_setStore_file h
    have hsettled := removedSince?_of_journal (of_settle_eq_ok hsettle) hremoved
    rcases hafter with ⟨hsame, rfl⟩ | ⟨ready, hready, rfl⟩
    · obtain ⟨permissions, hfile⟩ := holdsStore_iff.mp hsame
      rw [store_file hsettled (settle_settled hsettle), hfile]
      rfl
    · rw [store_file hremoved hsettle] at hbefore
      obtain ⟨hjournal, hready⟩ := of_journaled_eq_ok hready
      have hlocation : location ≠ [] := by
        rintro rfl
        exact absurd hbefore (by simp [Files.get?, nodeStore])
      exact store_putStore (removedSince?_of_journal hready hsettled) hjournal hlocation _ _

/-- A run is added by writing the store with its row in front, under the next number. -/
theorem insert_eq_ok_iff {handle written : Handle} {files after : Files} {run : Run} {id : Nat} :
    handle.insert files run = .ok (id, written, after) ↔
      ∃ before table, handle.store files = .ok before ∧ before.table = some table ∧
        id = table.lastId + 1 ∧
        handle.setStore files
          { before with table := some ⟨Row.ofRun id run :: table.rows, id⟩ } =
            .ok (written, after) := by
  constructor
  · intro h
    obtain ⟨before, hbefore, h⟩ := of_bind_eq_ok h
    obtain ⟨⟨number, store⟩, hinsert, h⟩ := of_bind_eq_ok h
    obtain ⟨⟨handle, files⟩, hset, h⟩ := of_bind_eq_ok h
    obtain ⟨rfl, rfl, rfl⟩ := by simpa using Except.ok.inj h
    dsimp only [Store.insert] at hinsert
    split at hinsert
    · exact absurd hinsert (by simp)
    · next table htable =>
      obtain ⟨rfl, rfl⟩ := Prod.mk.inj (Except.ok.inj hinsert)
      exact ⟨before, table, hbefore, htable, rfl, hset⟩
  · rintro ⟨before, table, hbefore, htable, rfl, hset⟩
    rw [insert, update, hbefore]
    simp [Store.insert, htable, hset, bind, Except.bind]

/-- **A run that is added** gets the next number, and its row stands in front of the rows that were
there before. -/
theorem of_insert_eq_ok {handle written : Handle} {files after : Files} {run : Run} {id : Nat}
    (h : handle.insert files run = .ok (id, written, after)) :
    ∃ before table, handle.store files = .ok before ∧ before.table = some table ∧
      id = table.lastId + 1 ∧
      written.store after =
        .ok { before with table := some ⟨Row.ofRun id run :: table.rows, id⟩ } := by
  obtain ⟨before, table, hbefore, htable, hid, hset⟩ := insert_eq_ok_iff.mp h
  exact ⟨before, table, hbefore, htable, hid, store_setStore hbefore hset⟩

end Handle

end Ledger

end KernelCatalog
