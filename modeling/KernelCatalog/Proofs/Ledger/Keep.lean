import KernelCatalog.Proofs.Files.Keep

/-!
# What writing to a ledger keeps

An open ledger in a file has two places: its own and that of the journal beside it. Adding a run
deals with a journal that is left over, makes one that is gone when the write is over, and replaces
the file; it concerns these two places only, if the journal is no link.

* `Handle.keeps_insert`: adding a run concerns the places of the ledger only.
-/

namespace KernelCatalog.Ledger

/-- The places that an open ledger writes to: its file and the journal beside it. -/
def Handle.places : Handle → List Location
  | .memory _ | .fixed _ => []
  | .file location _ _ => [location, journalAt location]

section Journal

variable {files after : Files} {location : Location}

theorem ne_journalAt (location : Location) : location ≠ journalAt location := by
  intro heq
  have hself : journalAt location <+: location := ⟨[], (List.append_nil _).trans heq.symm⟩
  rw [← List.isPrefixOf_iff_prefix, isPrefixOf_journalAt] at hself
  exact absurd hself (by simp)

theorem keeps_settle {readOnly : Bool} (htree : files.IsTree)
    (h : settle files location readOnly = .ok after) :
    files.Keeps [journalAt location] after := by
  unfold settle at h
  dsimp only at h
  split at h
  · exact absurd h (by simp)
  · next hfile =>
    have herased := Files.keeps_erase htree (htree.spot_of_file hfile)
    split at h
    · obtain rfl := Except.ok.inj h
      exact .refl htree
    · split at h
      · obtain rfl := Except.ok.inj h
        split
        · exact .refl htree
        · exact herased
      · split at h
        · obtain rfl := Except.ok.inj h
          exact .refl htree
        · split at h
          · exact absurd h (by simp)
          · obtain rfl := Except.ok.inj h
            exact herased
  · obtain rfl := Except.ok.inj h
    exact .refl htree

/-- The journal of a write concerns the journal only, if there is no link in its place. -/
theorem keeps_journaled (htree : files.IsTree)
    (hlink : files.linkIn? (journalAt location) = none)
    (h : journaled files location = .ok after) : files.Keeps [journalAt location] after := by
  unfold journaled at h
  dsimp only at h
  split at h
  · exact absurd h (by simp)
  · split at h
    · exact absurd h (by simp)
    · next node hnot hnode =>
      obtain rfl := Except.ok.inj h
      refine Files.keeps_erase htree ⟨htree _ _ hnode, ?_, hlink⟩
      rw [hnode]
      simpa using hnot
    · obtain rfl := Except.ok.inj h
      exact .refl htree

theorem exists_file_of_nodeStore {store : Store}
    (h : nodeStore (files.get? location) = .ok store) :
    ∃ content permissions, files.get? location = some (.file content permissions) := by
  unfold nodeStore at h
  split at h
  · next content permissions hfile => exact ⟨content, permissions, hfile⟩
  · exact absurd h (by simp)

end Journal

namespace Handle

theorem places_of_setStore {handle written : Handle} {files after : Files} {store : Store}
    (h : handle.setStore files store = .ok (written, after)) : written.places = handle.places := by
  cases handle with
  | memory old =>
    obtain ⟨rfl, -⟩ := Prod.mk.inj (Except.ok.inj h)
    rfl
  | fixed old => exact absurd h (by simp [setStore])
  | file location removals readOnly => rw [(of_setStore_file h).1]

theorem places_of_insert {handle written : Handle} {files after : Files} {run : Run} {id : Nat}
    (h : handle.insert files run = .ok (id, written, after)) : written.places = handle.places := by
  obtain ⟨before, table, -, -, -, hset⟩ := insert_eq_ok_iff.mp h
  exact places_of_setStore hset

/-- **Writing the store of an open ledger** concerns the places of the ledger only. -/
theorem keeps_setStore {handle written : Handle} {files after : Files} {before store : Store}
    (htree : files.IsTree) (hlinks : ∀ location ∈ handle.places, files.linkIn? location = none)
    (hbefore : handle.store files = .ok before)
    (h : handle.setStore files store = .ok (written, after)) :
    files.Keeps handle.places after := by
  cases handle with
  | memory old =>
    obtain ⟨rfl, rfl⟩ := Prod.mk.inj (Except.ok.inj h)
    exact .refl htree
  | fixed old => exact absurd h (by simp [setStore])
  | file location removals readOnly =>
    obtain ⟨rfl, hremoved, settled, hsettle, hafter⟩ := of_setStore_file h
    have hjournal : [journalAt location] ⊆ (file location removals readOnly).places := by
      simp [places]
    have hsettled := keeps_settle htree hsettle
    rcases hafter with ⟨-, rfl⟩ | ⟨ready, hready, rfl⟩
    · exact hsettled.mono hjournal
    · have hlink : settled.linkIn? (journalAt location) = none := by
        rw [hsettled.link]
        exact hlinks _ (by simp [places])
      have hkept := keeps_journaled hsettled.isTree hlink hready
      rw [store_file hremoved hsettle] at hbefore
      obtain ⟨content, permissions, hfile⟩ := exists_file_of_nodeStore hbefore
      -- taking the journal away leaves the file where it is
      have hstill : ready.get? location = some (.file content permissions) := by
        rw [← Files.fileIn?_eq_some_iff] at hfile ⊢
        rw [hkept.file location (by simpa using ne_journalAt location), hfile]
      obtain ⟨left, hleft⟩ := exists_putStore ready location store
      have hput := Files.keeps_put hkept.isTree (hkept.isTree.spot_of_file hstill)
        (.file (.ledger store) left) (by simp)
      rw [hleft]
      exact ((hsettled.trans hkept).mono hjournal).trans (hput.mono (by simp [places]))

/-- **Adding a run** concerns the places of the ledger only. -/
theorem keeps_insert {handle written : Handle} {files after : Files} {run : Run} {id : Nat}
    (htree : files.IsTree) (hlinks : ∀ location ∈ handle.places, files.linkIn? location = none)
    (h : handle.insert files run = .ok (id, written, after)) :
    files.Keeps handle.places after := by
  obtain ⟨before, table, hbefore, -, -, hset⟩ := insert_eq_ok_iff.mp h
  exact keeps_setStore htree hlinks hbefore hset

end Handle

end KernelCatalog.Ledger
