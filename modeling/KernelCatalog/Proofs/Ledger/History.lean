import KernelCatalog.Proofs.Ledger.Opening

/-!
# The history that a ledger keeps

An open ledger takes runs, is looked at, and its file is opened again. `Uses` says what can happen
to it and which runs it has taken on the way. Whatever happens, it lists the runs that it has taken
in front of those that it had, the latest first, and its numbers count up.

* `Use.records`: what one use of a ledger adds to its history.
* `Uses.records`: what any number of uses add.
* `Records.exists_insert`: a ledger that can be written takes another run.
* `history_of_uses`: the listings of a ledger after any number of uses.
-/

namespace KernelCatalog.Ledger

/-! ## Listings -/

/-- The run that a row keeps has the target of the row. -/
theorem Row.target_of_run {row : Row} {run : Run} (h : row.run = .ok run) :
    run.target = row.target := by
  unfold Row.run at h
  split at h
  · exact absurd h (by simp)
  · exact Except.ok.inj h ▸ rfl

/-- The runs of the rows of a target are the runs of that target. -/
theorem mapM_run_filter {rows : List Row} {runs : List Run} (h : rows.mapM Row.run = .ok runs)
    (target : String) :
    (rows.filter fun row => row.target == target).mapM Row.run =
      .ok (runs.filter fun run => run.target == target) := by
  induction rows generalizing runs with
  | nil =>
    obtain rfl := Except.ok.inj h
    rfl
  | cons row rest ih =>
    rw [List.mapM_cons] at h
    obtain ⟨run, hrun, h⟩ := of_bind_eq_ok h
    obtain ⟨others, hothers, h⟩ := of_bind_eq_ok h
    obtain rfl := Except.ok.inj h
    have hrest := ih hothers
    rw [List.filter_cons, List.filter_cons, Row.target_of_run hrun]
    split_ifs
    · rw [List.mapM_cons, hrun, hrest]
      rfl
    · exact hrest

/-- The rows that keep the runs of a log. -/
theorem mapM_run_ofRun (log : List (Nat × Run)) :
    (log.map fun taken => Row.ofRun taken.1 taken.2).mapM Row.run = .ok (log.map Prod.snd) := by
  induction log with
  | nil => rfl
  | cons taken rest ih =>
    rw [List.map_cons, List.mapM_cons, Row.run_ofRun, ih]
    rfl

/-- The newest run of a target is the first of its runs. -/
theorem latest_eq_head {store : Store} {target : String} {runs : List Run}
    (h : store.runs (some target) = .ok runs) : store.latest target = .ok runs.head? := by
  obtain ⟨rows, hrows, h⟩ := of_bind_eq_ok h
  rw [Store.latest, hrows]
  cases rows with
  | nil =>
    obtain rfl := Except.ok.inj h
    rfl
  | cons row rest =>
    rw [List.mapM_cons] at h
    obtain ⟨run, hrun, h⟩ := of_bind_eq_ok h
    obtain ⟨others, -, h⟩ := of_bind_eq_ok h
    obtain rfl := Except.ok.inj h
    simp [hrun, bind, Except.bind]

/-! ## Uses -/

/-- An open ledger, and the files that it is among. -/
structure Session where
  handle : Handle
  files : Files

/-- What can happen to an open ledger, with the run that it takes and its number, if it takes one.
A run is added; the ledger is looked at, or refuses a run, which deals with its journal at most; its
file is opened again, at any path that leads there. -/
inductive Use : Session → List (Nat × Run) → Session → Prop where
  | insert {handle written : Handle} {files after : Files} {run : Run} {id : Nat}
      (done : handle.insert files run = .ok (id, written, after)) :
      Use ⟨handle, files⟩ [(id, run)] ⟨written, after⟩
  | look {handle : Handle} {files : Files} : Use ⟨handle, files⟩ [] ⟨handle, handle.settled files⟩
  | reopen {handle again : Handle} {files after : Files} {path : Path}
      (opened : openFile files path = (.ok again, after)) (same : again.places = handle.places)
      (kept : handle.places ≠ []) : Use ⟨handle, files⟩ [] ⟨again, after⟩

/-- What happens to an open ledger one after another, with the runs that it takes, the earliest
first. -/
inductive Uses : Session → List (Nat × Run) → Session → Prop where
  | start {session : Session} : Uses session [] session
  | next {first middle last : Session} {log taken : List (Nat × Run)}
      (before : Uses first log middle) (use : Use middle taken last) :
      Uses first (log ++ taken) last

/-! ## What is recorded -/

/-- A ledger has taken the runs of a log; their rows are in front of those that it had. -/
structure Records (earlier : List Row) (log : List (Nat × Run)) (session : Session) : Prop where
  inPlace : session.handle.InPlace session.files
  ids : (log.map Prod.fst).Pairwise (· < ·)
  held : ∃ store table, session.handle.store session.files = .ok store ∧
    store.table = some table ∧
    table.rows = (log.map fun taken => Row.ofRun taken.1 taken.2).reverse ++ earlier ∧
    ∀ id ∈ log.map Prod.fst, id ≤ table.lastId

/-- A version of a store that is needed keeps its table. -/
theorem Store.table_of_migrate {store current : Store} {table : Table}
    (htable : store.table = some table) (h : store.migrate = .ok current) :
    current.table = some table := by
  unfold Store.migrate at h
  split_ifs at h
  · obtain rfl := Except.ok.inj h
    rw [htable]
    rfl
  · exact Except.ok.inj h ▸ htable

/-- **A ledger that is opened again** holds the table that its file holds. -/
theorem store_of_reopen {handle again : Handle} {files after : Files} {path : Path} {store : Store}
    {table : Table} (hplace : handle.InPlace files) (hstore : handle.store files = .ok store)
    (htable : store.table = some table) (hopen : openFile files path = (.ok again, after))
    (hsame : again.places = handle.places) (hkept : handle.places ≠ []) :
    again.InPlace after ∧ ∃ current, again.store after = .ok current ∧
      current.table = some table := by
  obtain ⟨connected, between, found, current, hconnect, hfound, hcurrent, hplaces, hagain, hheld⟩ :=
    of_openFile_eq_ok hopen
  refine ⟨hagain, current, hheld, ?_⟩
  cases handle with
  | memory held => exact absurd rfl hkept
  | fixed held => exact absurd rfl hkept
  | file location removals readOnly =>
    cases of_connect_eq_ok hconnect with
    | memory => exact absurd (hsame.symm.trans hplaces) (by simp [Handle.places])
    | fixed => exact absurd (hsame.symm.trans hplaces) (by simp [Handle.places])
    | @file place _ writable hfile =>
      have heq : location = place :=
        (List.cons.inj ((hsame.symm.trans hplaces : (Handle.file location removals readOnly).places =
          (Handle.file place between.removed.length writable).places))).1
      subst heq
      obtain ⟨-, hnode⟩ := (Handle.store_file_eq_ok_iff hplace).mp hstore
      obtain ⟨-, hbetween⟩ := (Handle.store_file_eq_ok_iff (removedSince?_now _ _)).mp hfound
      obtain ⟨content, permissions, hget⟩ := exists_file_of_nodeStore hnode
      cases hfile with
      | there =>
        obtain rfl := Except.ok.inj (hnode.symm.trans hbetween)
        exact Store.table_of_migrate htable hcurrent
      | made hmissing => exact absurd (hmissing.symm.trans hget) (by simp)

/-- **What one use of a ledger adds to its history.** -/
theorem Use.records {first last : Session} {earlier : List Row} {log taken : List (Nat × Run)}
    (huse : Use first taken last) (h : Records earlier log first) :
    Records earlier (log ++ taken) last := by
  obtain ⟨hplace, hids, store, table, hstore, htable, hrows, hlast⟩ := h
  cases huse with
  | @insert handle written files after run id hdone =>
    obtain ⟨before, held, hbefore, hheld, rfl, hset⟩ := Handle.insert_eq_ok_iff.mp hdone
    obtain rfl := Except.ok.inj (hstore.symm.trans hbefore)
    obtain rfl := Option.some.inj (htable.symm.trans hheld)
    refine ⟨Handle.inPlace_of_setStore hset, ?_, _, _, Handle.store_setStore hbefore hset, rfl, ?_,
      ?_⟩
    · -- the new number is above the last one, and so above each that was given
      rw [List.map_append, List.pairwise_append]
      refine ⟨hids, by simp, fun id hid other hother => ?_⟩
      obtain rfl := List.mem_singleton.mp hother
      exact Nat.lt_succ_of_le (hlast id hid)
    · simp [hrows]
    · rw [List.map_append]
      intro id hid
      rcases List.mem_append.mp hid with hid | hid
      · exact Nat.le_succ_of_le (hlast id hid)
      · exact (List.mem_singleton.mp hid).le
  | look =>
    rw [List.append_nil]
    obtain ⟨hsettled, hheld⟩ := Handle.store_settled hplace hstore
    exact ⟨hsettled, hids, store, table, hheld, htable, hrows, hlast⟩
  | reopen hopened hsame hkept =>
    rw [List.append_nil]
    obtain ⟨hagain, current, hcurrent, hkeptTable⟩ :=
      store_of_reopen hplace hstore htable hopened hsame hkept
    exact ⟨hagain, hids, current, table, hcurrent, hkeptTable, hrows, hlast⟩

/-- **What any number of uses add to the history of a ledger.** -/
theorem Uses.records {first last : Session} {earlier : List Row} {log : List (Nat × Run)}
    (huses : Uses first log last) (h : Records earlier [] first) : Records earlier log last := by
  induction huses with
  | start => exact h
  | next _ huse ih => exact huse.records ih

namespace Records

variable {earlier : List Row} {log : List (Nat × Run)} {session : Session}

/-- An open ledger with a table has its rows for its history. -/
theorem of_table {store : Store} {table : Table} (hplace : session.handle.InPlace session.files)
    (hstore : session.handle.store session.files = .ok store) (htable : store.table = some table) :
    Records table.rows [] session :=
  ⟨hplace, .nil, store, table, hstore, htable, rfl, by simp⟩

/-- An open ledger that lists runs has their rows for its history. -/
theorem exists_of_open {path : Path} {before : Files} {runs : List Run}
    (hopen : openFile before path = (.ok session.handle, session.files))
    (hruns : session.handle.runs session.files none = .ok runs) :
    ∃ earlier : List Row, earlier.mapM Row.run = .ok runs ∧ Records earlier [] session := by
  obtain ⟨-, -, -, current, -, -, -, -, hplace, hheld⟩ := of_openFile_eq_ok hopen
  obtain ⟨store, hstore, hlisted⟩ := of_bind_eq_ok hruns
  obtain rfl := Except.ok.inj (hstore.symm.trans hheld)
  obtain ⟨rows, hrows, hlisted⟩ := of_bind_eq_ok hlisted
  cases htable : store.table with
  | none => exact absurd hrows (by simp [Store.rows, htable])
  | some table =>
    obtain rfl : table.rows = rows := by simpa [Store.rows, htable] using hrows
    exact ⟨table.rows, hlisted, of_table hplace hstore htable⟩

/-- The listings of a ledger are those of its rows. -/
theorem runs_eq (h : Records earlier log session) :
    session.handle.runs session.files none =
        ((log.map fun taken => Row.ofRun taken.1 taken.2).reverse ++ earlier).mapM Row.run ∧
      ∀ target, session.handle.runs session.files (some target) =
        (((log.map fun taken => Row.ofRun taken.1 taken.2).reverse ++ earlier).filter
          fun row => row.target == target).mapM Row.run := by
  obtain ⟨-, -, store, table, hstore, htable, hrows, -⟩ := h
  rw [← hrows]
  refine ⟨?_, fun target => ?_⟩ <;>
  · rw [Handle.runs, hstore]
    change store.runs _ = _
    simp only [Store.runs, Store.rows, htable]
    rfl

/-- The newest run of a target is the first that is listed. -/
theorem latest_eq (h : Records earlier log session) {target : String} {runs : List Run}
    (hruns : session.handle.runs session.files (some target) = .ok runs) :
    session.handle.latest session.files target = .ok runs.head? := by
  obtain ⟨-, -, store, table, hstore, -⟩ := h
  rw [Handle.runs, hstore] at hruns
  rw [Handle.latest, hstore]
  exact latest_eq_head hruns

/-- **The listings of a ledger** whose earlier rows keep runs. -/
theorem listings {runs : List Run} (h : Records earlier log session)
    (hearlier : earlier.mapM Row.run = .ok runs) (target : String) :
    session.handle.runs session.files none = .ok ((log.map Prod.snd).reverse ++ runs) ∧
      session.handle.runs session.files (some target) =
        .ok (((log.map Prod.snd).reverse ++ runs).filter fun run => run.target == target) ∧
      session.handle.latest session.files target =
        .ok (((log.map Prod.snd).reverse ++ runs).filter fun run => run.target == target).head? := by
  obtain ⟨hall, hsome⟩ := h.runs_eq
  have hrows : ((log.map fun taken => Row.ofRun taken.1 taken.2).reverse ++ earlier).mapM Row.run =
      .ok ((log.map Prod.snd).reverse ++ runs) := by
    rw [← List.map_reverse, List.mapM_append, mapM_run_ofRun, hearlier, List.map_reverse]
    rfl
  have htarget := (hsome target).trans (mapM_run_filter hrows target)
  exact ⟨hall.trans hrows, htarget, h.latest_eq htarget⟩

end Records

/-! ## Taking runs -/

namespace Handle

/-- Whether an open ledger cannot be written whatever happens to its file. -/
def isReadOnly : Handle → Bool
  | .memory _ => false
  | .fixed _ => true
  | .file _ _ readOnly => readOnly

/-- A journal can be made for an open ledger: its name is not too long, and no directory is in its
place. -/
def Unblocked (handle : Handle) (files : Files) : Prop :=
  ∀ journal ∈ handle.journals, (journal.getLast?.getD "").utf8ByteSize ≤ Files.nameLimit ∧
    files.get? journal ≠ some .directory

variable {handle : Handle} {files after : Files} {store : Store}

/-- A journal can still be made after it was taken away. -/
theorem Unblocked.of_rewritten {other : Handle} (h : handle.Unblocked files)
    (hjournals : other.journals = handle.journals)
    (hafter : ∀ journal ∈ handle.journals,
      after.get? journal = none ∨ after.get? journal = files.get? journal) :
    other.Unblocked after := by
  intro journal hmem
  rw [hjournals] at hmem
  obtain ⟨hname, hfree⟩ := h journal hmem
  refine ⟨hname, ?_⟩
  rcases hafter journal hmem with hnone | hsame
  · simp [hnone]
  · rwa [hsame]

/-- **A ledger can be written** if it is not only for reading and a journal can be made. -/
theorem exists_setStore (hplace : handle.InPlace files) (hstore : handle.store files = .ok store)
    (hwritable : handle.isReadOnly = false) (hfree : handle.Unblocked files) (next : Store) :
    ∃ written after, handle.setStore files next = .ok (written, after) := by
  cases handle with
  | memory held => exact ⟨_, _, rfl⟩
  | fixed held => exact absurd hwritable (by simp [isReadOnly])
  | file location removals readOnly =>
    obtain rfl : readOnly = false := hwritable
    obtain ⟨⟨settled, hsettle⟩, -⟩ := (store_file_eq_ok_iff hplace).mp hstore
    have hremoved : files.removedSince? removals location = none := hplace
    obtain ⟨hname, hdirectory⟩ := hfree (journalAt location) (by simp [journals, places])
    have hready : ∃ ready, journaled settled location = .ok ready := by
      have hstill : settled.get? (journalAt location) ≠ some .directory := by
        rcases of_settle_eq_ok hsettle with rfl | rfl
        · exact hdirectory
        · simp [Files.get?_erase _ (journalAt_ne_nil location)]
      unfold journaled
      dsimp only
      rw [if_neg (Nat.not_lt.mpr hname)]
      split
      · exact absurd ‹_› hstill
      · exact ⟨_, rfl⟩
      · exact ⟨_, rfl⟩
    obtain ⟨ready, hready⟩ := hready
    exact exists_setStore_file hremoved hsettle hready next

end Handle

theorem Use.places_eq {first last : Session} {taken : List (Nat × Run)}
    (huse : Use first taken last) : last.handle.places = first.handle.places := by
  cases huse with
  | insert hdone => exact Handle.places_of_insert hdone
  | look => rfl
  | reopen _ hsame => exact hsame

/-- What is done to an open ledger in a file changes the file and takes the journal away, at
most. -/
theorem Use.rewritten {location : Location} {removals : Nat} {readOnly : Bool}
    {before : Files} {last : Session} {taken : List (Nat × Run)}
    (huse : Use ⟨.file location removals readOnly, before⟩ taken last)
    (hheld : ∃ content permissions, before.get? location = some (.file content permissions)) :
    ∃ gone, Rewritten location gone before last.files := by
  cases huse with
  | insert hdone =>
    obtain ⟨_, _, -, -, -, hset⟩ := Handle.insert_eq_ok_iff.mp hdone
    exact Rewritten.of_setStore hheld hset
  | look => exact Rewritten.settled hheld
  | @reopen _ again _ _ path hopened hsame =>
    cases opens_of_openFile hopened with
    | memory => exact absurd hsame (by simp [Handle.places])
    | fixed => exact absurd hsame (by simp [Handle.places])
    | @file place _ _ gone _ _ _ _ _ hrewritten =>
      obtain rfl : place = location := (List.cons.inj hsame).1
      exact ⟨gone, hrewritten⟩

/-- A journal can still be made after what is done to an open ledger. -/
theorem Use.unblocked {first last : Session} {earlier : List Row} {log taken : List (Nat × Run)}
    (huse : Use first taken last) (h : Records earlier log first)
    (hfree : first.handle.Unblocked first.files) : last.handle.Unblocked last.files := by
  have hjournals : last.handle.journals = first.handle.journals :=
    congrArg List.tail huse.places_eq
  refine hfree.of_rewritten hjournals fun journal hmem => ?_
  obtain ⟨handle, before⟩ := first
  cases handle with
  | memory held => exact absurd hmem (by simp [Handle.journals, Handle.places])
  | fixed held => exact absurd hmem (by simp [Handle.journals, Handle.places])
  | file location removals readOnly =>
    obtain ⟨store, table, hstore, -⟩ := h.held
    obtain ⟨-, hnode⟩ := (Handle.store_file_eq_ok_iff h.inPlace).mp hstore
    obtain ⟨gone, hrewritten⟩ := huse.rewritten (exists_file_of_nodeStore hnode)
    obtain rfl : journal = journalAt location := List.mem_singleton.mp hmem
    rw [hrewritten.get?_eq _ (ne_journalAt location).symm]
    split
    · exact Or.inl rfl
    · exact Or.inr rfl

/-- A journal can still be made after any number of uses. -/
theorem Uses.unblocked {first last : Session} {earlier : List Row} {log : List (Nat × Run)}
    (huses : Uses first log last) (h : Records earlier [] first)
    (hfree : first.handle.Unblocked first.files) : last.handle.Unblocked last.files := by
  induction huses with
  | start => exact hfree
  | next hbefore huse ih => exact huse.unblocked (hbefore.records h) ih

/-- **A ledger with a history takes another run** if it can be written. -/
theorem Records.exists_insert {earlier : List Row} {log : List (Nat × Run)} {session : Session}
    (h : Records earlier log session) (hwritable : session.handle.isReadOnly = false)
    (hfree : session.handle.Unblocked session.files) (run : Run) :
    ∃ id written after, session.handle.insert session.files run = .ok (id, written, after) := by
  obtain ⟨hplace, -, store, table, hstore, htable, -⟩ := h
  obtain ⟨written, after, hset⟩ := Handle.exists_setStore hplace hstore hwritable hfree _
  exact ⟨_, written, after, Handle.insert_eq_ok_iff.mpr ⟨_, _, hstore, htable, rfl, hset⟩⟩

/-! ## The history -/

/-- **The history of a ledger.** However an open ledger is used, its numbers count up; it lists the
runs that it took, the latest first, in front of those that it had; it lists those of a target in
the same order, and the newest of them is the first; and it takes the next run, if it was not opened
for reading only and its journal can be made. -/
theorem history_of_uses {path : Path} {before : Files} {first last : Session}
    {earlier : List Run} {log : List (Nat × Run)}
    (hopen : openFile before path = (.ok first.handle, first.files))
    (hearlier : first.handle.runs first.files none = .ok earlier)
    (huses : Uses first log last) :
    (log.map Prod.fst).Pairwise (· < ·) ∧
      last.handle.runs last.files none = .ok ((log.map Prod.snd).reverse ++ earlier) ∧
      (∀ target, last.handle.runs last.files (some target) =
        .ok (((log.map Prod.snd).reverse ++ earlier).filter fun run => run.target == target)) ∧
      (∀ target, last.handle.latest last.files target =
        .ok (((log.map Prod.snd).reverse ++ earlier).filter fun run => run.target == target).head?) ∧
      (first.handle.Unblocked first.files → last.handle.isReadOnly = false →
        ∀ run, ∃ id written after,
          last.handle.insert last.files run = .ok (id, written, after)) := by
  obtain ⟨rows, hrows, hstart⟩ := Records.exists_of_open hopen hearlier
  have hrecords := huses.records hstart
  refine ⟨hrecords.ids, (hrecords.listings hrows "").1,
    fun target => (hrecords.listings hrows target).2.1,
    fun target => (hrecords.listings hrows target).2.2, fun hfree hwritable => ?_⟩
  exact hrecords.exists_insert hwritable (huses.unblocked hstart hfree)

/-- A run with counts that take all sixty-four bits. -/
def wideRun : Run where
  target := "dev"
  architecture := "amdgpu"
  processor := none
  compiler := "prebuilt"
  status := .failed
  error := some "no kernels"
  binaryPath := none
  binaryHash := none
  generatedPath := none
  kernelCount := 18446744073709551615
  overloadCount := 9223372036854775808
  generatedChanged := false
  startedAt := "2026-01-01T00:00:00Z"
  finishedAt := "2026-01-01T00:00:01Z"

/-- A run of another target. -/
def otherRun : Run := { wideRun with target := "cpu", status := .succeeded, error := none }

/-- A ledger with some rows, in a file. -/
def sampleSession (rows : List Row) : Session where
  handle := .file ["p", "runs.db"] 0 false
  files := putStore (Files.empty ["p"]) ["p", "runs.db"] ⟨1, some ⟨rows, rows.length⟩⟩

/-- A new ledger that takes a run, is opened again, is looked at and takes a run of another
target. -/
theorem history_of_uses_reopened :
    openFile (Files.empty ["p"]) ⟨"/p/runs.db"⟩ =
        (.ok (sampleSession []).handle, (sampleSession []).files) ∧
      (sampleSession []).handle.runs (sampleSession []).files none = .ok [] ∧
      ∃ last, Uses (sampleSession []) [(1, wideRun), (2, otherRun)] last ∧
        last.handle.runs last.files none = .ok [otherRun, wideRun] ∧
        last.handle.latest last.files "dev" = .ok (some wideRun) ∧
        ∃ id written after, last.handle.insert last.files wideRun = .ok (id, written, after) := by
  have hopen : openFile (Files.empty ["p"]) ⟨"/p/runs.db"⟩ =
      (.ok (sampleSession []).handle, (sampleSession []).files) := rfl
  have hfirst : Use (sampleSession []) [(1, wideRun)] (sampleSession [.ofRun 1 wideRun]) :=
    .insert rfl
  have hagain : Use (sampleSession [.ofRun 1 wideRun]) [] (sampleSession [.ofRun 1 wideRun]) :=
    @Use.reopen _ _ _ _ ⟨"/p/runs.db"⟩ rfl rfl (by simp [Handle.places])
  have hsecond : Use (sampleSession [.ofRun 1 wideRun]) [(2, otherRun)]
      (sampleSession [.ofRun 2 otherRun, .ofRun 1 wideRun]) := .insert rfl
  have huses := (((Uses.start.next hfirst).next hagain).next .look).next hsecond
  obtain ⟨-, hruns, -, hlatest, hnext⟩ := history_of_uses hopen rfl huses
  refine ⟨hopen, rfl, _, huses, hruns, hlatest "dev", hnext ?_ rfl wideRun⟩
  intro journal hmem
  obtain rfl := List.mem_singleton.mp hmem
  exact ⟨by decide +kernel, by decide +kernel⟩

end KernelCatalog.Ledger
