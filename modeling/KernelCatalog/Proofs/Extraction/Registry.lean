import KernelCatalog.Extraction.Backend
import KernelCatalog.Proofs.Architecture
import KernelCatalog.Proofs.Text.Utf8
import Mathlib.Data.List.Perm.Basic

/-!
# Registries as sequences of registrations

A registry that grows by registrations from an empty one has, for every architecture that a backend
was registered for, the backend registered last and no other. `Records` relates its entries to the
registrations, `Records.register` is its step and `Records.foldl` the run. The backends registered
last settle the entries up to their order, and the order settles nothing: a lookup finds the only
backend of its architecture, and both listings are sorted by keys of which no two are equal. So two
histories that end in the same backends leave registries that cannot be told apart.

* `Registry.DispatchesTo`: how a registry answers after registrations.
* `Registry.AnswersAs`: two registries that cannot be told apart.
* `Registry.dispatches_to_latest`: a registry dispatches to the backends registered last.
-/

namespace KernelCatalog.Registry

/-! ## Registrations -/

/-- The registry that backends leave that are registered one after another, from an empty one. -/
def ofHistory (history : List Backend) : Registry := history.foldl register empty

/-- The backend that was registered last for an architecture. -/
def latest? (history : List Backend) (architecture : Architecture) : Option Backend :=
  (history.filter fun backend => backend.architecture = architecture).getLast?

theorem latest?_concat (history : List Backend) (backend : Backend) (architecture : Architecture) :
    latest? (history ++ [backend]) architecture =
      if backend.architecture = architecture then some backend
      else latest? history architecture := by
  rw [latest?, List.filter_append]
  by_cases h : backend.architecture = architecture
  · simp [h]
  · simp [h, latest?]

/-- The backend registered last for an architecture is of that architecture. -/
theorem architecture_of_latest? {history : List Backend} {backend : Backend}
    {architecture : Architecture} (h : latest? history architecture = some backend) :
    backend.architecture = architecture := by
  have hmem := List.mem_of_getLast? h
  simpa using (List.mem_filter.mp hmem).2

/-- No backend is the last one for an architecture if none was registered for it. -/
theorem latest?_eq_none_iff {history : List Backend} {architecture : Architecture} :
    latest? history architecture = none ↔
      ∀ backend ∈ history, backend.architecture ≠ architecture := by
  rw [latest?, List.getLast?_eq_none_iff, List.filter_eq_nil_iff]
  simp

/-- The entries are what registrations leave: the backend registered last for each architecture, and
no two backends of one architecture. -/
structure Records (history entries : List Backend) : Prop where
  distinct : entries.Pairwise fun first second => first.architecture ≠ second.architecture
  mem_iff : ∀ backend, backend ∈ entries ↔ latest? history backend.architecture = some backend

namespace Records

variable {history others entries kept : List Backend} {registry other : Registry}

theorem nil : Records [] empty.entries where
  distinct := List.Pairwise.nil
  mem_iff backend := by simp [empty, latest?]

theorem register (h : Records history registry.entries) (backend : Backend) :
    Records (history ++ [backend]) (registry.register backend).entries where
  distinct := by
    refine List.Pairwise.cons ?_ (h.distinct.filter _)
    intro old hold heq
    -- the backend that was there for this architecture is taken out
    have hne := (List.mem_filter.mp hold).2
    simp [heq] at hne
  mem_iff candidate := by
    rw [latest?_concat, Registry.register, List.mem_cons, List.mem_filter, h.mem_iff]
    by_cases harchitecture : backend.architecture = candidate.architecture
    · simp [harchitecture, eq_comm]
    · have hne : candidate ≠ backend := by
        rintro rfl
        exact harchitecture rfl
      simp [harchitecture, Ne.symm harchitecture, hne]

theorem foldl (h : Records history registry.entries) (more : List Backend) :
    Records (history ++ more) (more.foldl Registry.register registry).entries := by
  -- the registrations already made grow with the registry
  induction more generalizing history registry with
  | nil => simpa using h
  | cons backend more ih =>
    rw [List.append_cons]
    exact ih (h.register backend)

/-- However backends are registered, the entries are what the registrations leave. -/
theorem ofHistory (history : List Backend) : Records history (Registry.ofHistory history).entries :=
  nil.foldl history

theorem perm (h : Records history entries) (hperm : kept.Perm entries) : Records history kept where
  distinct := (hperm.pairwise_iff fun hne => hne.symm).mpr h.distinct
  mem_iff backend := hperm.mem_iff.trans (h.mem_iff backend)

theorem nodup (h : Records history entries) : entries.Nodup :=
  h.distinct.imp fun hne heq => hne (congrArg Backend.architecture heq)

/-- The backends registered last settle the entries, up to their order. -/
theorem perm_of_latest?_eq (h : Records history entries) (hkept : Records others kept)
    (hlatest : ∀ architecture, latest? others architecture = latest? history architecture) :
    kept.Perm entries := by
  refine (List.perm_ext_iff_of_nodup hkept.nodup h.nodup).mpr ?_
  intro backend
  rw [hkept.mem_iff, h.mem_iff, hlatest]

/-! ## The answers of a registry -/

theorem get?_eq (h : Records history registry.entries) (architecture : Architecture) :
    registry.get? architecture = latest? history architecture := by
  rw [get?]
  cases hfind : registry.entries.find? fun b => b.architecture == architecture with
  | some backend =>
    obtain rfl : backend.architecture = architecture := by simpa using List.find?_some hfind
    exact ((h.mem_iff backend).mp (List.mem_of_find?_eq_some hfind)).symm
  | none =>
    cases hlatest : latest? history architecture with
    | none => rfl
    | some backend =>
      -- the last backend is there and would have been found
      obtain rfl := architecture_of_latest? hlatest
      have hmem := (h.mem_iff backend).mpr hlatest
      exact absurd (beq_self_eq_true _) (List.find?_eq_none.mp hfind backend hmem)

theorem backends_perm (registry : Registry) : registry.backends.Perm registry.entries :=
  List.mergeSort_perm _ _

theorem architectures_perm (registry : Registry) :
    registry.architectures.Perm (registry.backends.map fun b => b.architecture.name) :=
  (List.mergeSort_perm _ _).trans ((backends_perm registry).symm.map _)

/-- Backends are listed in the order of their architectures. -/
theorem pairwise_rank (h : Records history registry.entries) :
    registry.backends.Pairwise fun first second =>
      first.architecture.rank < second.architecture.rank := by
  have hsorted : registry.backends.Pairwise fun first second =>
      decide (first.architecture.rank ≤ second.architecture.rank) = true :=
    List.pairwise_mergeSort (by simpa using fun _ _ _ => Nat.le_trans)
      (by simpa using fun _ _ => Nat.le_total _ _) registry.entries
  have hdistinct := (h.perm (backends_perm registry)).distinct
  refine (hsorted.and hdistinct).imp ?_
  rintro first second ⟨hle, hne⟩
  exact lt_of_le_of_ne (of_decide_eq_true hle) fun heq => hne (Architecture.rank_injective heq)

/-- Of every architecture the backend registered last is listed, and no other. -/
theorem filter_backends (h : Records history registry.entries) (architecture : Architecture) :
    (registry.backends.filter fun backend => backend.architecture = architecture) =
      (latest? history architecture).toList := by
  have hlisted := h.perm (backends_perm registry)
  have hmem : ∀ backend,
      backend ∈ registry.backends.filter (fun backend => backend.architecture = architecture) ↔
        latest? history architecture = some backend := by
    intro backend
    rw [List.mem_filter, hlisted.mem_iff, decide_eq_true_iff]
    constructor
    · rintro ⟨hlatest, rfl⟩
      exact hlatest
    · intro hlatest
      obtain rfl := architecture_of_latest? hlatest
      exact ⟨hlatest, rfl⟩
  cases hlatest : latest? history architecture with
  | none =>
    refine List.eq_nil_iff_forall_not_mem.mpr fun backend hbackend => ?_
    exact absurd (hlatest.symm.trans ((hmem backend).mp hbackend)) (by simp)
  | some backend =>
    refine List.perm_singleton.mp ?_
    refine (List.perm_ext_iff_of_nodup (hlisted.nodup.filter _) (List.nodup_singleton _)).mpr ?_
    intro other
    rw [hmem, hlatest, Option.some.injEq, List.mem_singleton, eq_comm]

theorem pairwise_architectures (h : Records history registry.entries) :
    registry.architectures.Pairwise fun a b => Text.toBytes a < Text.toBytes b := by
  have hnames : (registry.entries.map fun b => b.architecture.name).Nodup :=
    List.pairwise_map.mpr (h.distinct.imp fun hne heq => hne (Architecture.name_injective heq))
  exact Text.pairwise_toBytes_mergeSort hnames

/-- An object is handed to the backend registered last for its architecture. -/
theorem extract_eq (h : Records history registry.entries) (object : Object) :
    registry.extract object =
      match latest? history object.architecture with
      | some backend => backend.extract object
      | none => .error (.unsupportedPlatform object.architecture registry.architectures) := by
  have hget := h.get?_eq object.architecture
  cases hlatest : latest? history object.architecture with
  | some backend => simp only [extract, hget, hlatest]
  | none => simp only [extract, hget, hlatest]

/-- Registries with the same entries list the same backends. -/
theorem backends_eq_of_perm (h : Records history registry.entries)
    (hperm : other.entries.Perm registry.entries) : other.backends = registry.backends := by
  have hboth : other.backends.Perm registry.backends :=
    (backends_perm other).trans (hperm.trans (backends_perm registry).symm)
  exact hboth.eq_of_pairwise (fun _ _ _ _ hlt hgt => absurd hgt (Nat.lt_asymm hlt))
    (h.perm hperm).pairwise_rank h.pairwise_rank

/-- Registries with the same entries list the same names. -/
theorem architectures_eq_of_perm (h : Records history registry.entries)
    (hperm : other.entries.Perm registry.entries) :
    other.architectures = registry.architectures := by
  have hboth : other.architectures.Perm registry.architectures :=
    (List.mergeSort_perm _ _).trans ((hperm.map _).trans (List.mergeSort_perm _ _).symm)
  exact hboth.eq_of_pairwise (fun _ _ _ _ hlt hgt => absurd hgt (List.lt_asymm hlt))
    (h.perm hperm).pairwise_architectures h.pairwise_architectures

end Records

/-- A registry answers for registrations. It has for an architecture the backend registered last for
it, or none if none was. It lists that backend and no other for every architecture that has one, in
the order of the architectures, and the names of these in the order of the names. An object goes to
the backend of its architecture; without one, what is said is which architecture that is and which
names there are. -/
structure DispatchesTo (history : List Backend) (registry : Registry) : Prop where
  get?_eq : ∀ architecture, registry.get? architecture = latest? history architecture
  get?_eq_none_iff : ∀ architecture, registry.get? architecture = none ↔
    ∀ backend ∈ history, backend.architecture ≠ architecture
  filter_backends : ∀ architecture,
    (registry.backends.filter fun backend => backend.architecture = architecture) =
      (latest? history architecture).toList
  pairwise_rank : registry.backends.Pairwise fun first second =>
    first.architecture.rank < second.architecture.rank
  architectures_perm :
    registry.architectures.Perm (registry.backends.map fun backend => backend.architecture.name)
  pairwise_architectures : registry.architectures.Pairwise fun a b =>
    Text.toBytes a < Text.toBytes b
  extract_eq : ∀ object, registry.extract object =
    match latest? history object.architecture with
    | some backend => backend.extract object
    | none => .error (.unsupportedPlatform object.architecture registry.architectures)

/-- Two registries give the same answers: the same backend for every architecture, the same listings
and the same catalog, or the same refusal, for every object. -/
structure AnswersAs (registry other : Registry) : Prop where
  get?_eq : ∀ architecture, registry.get? architecture = other.get? architecture
  backends_eq : registry.backends = other.backends
  architectures_eq : registry.architectures = other.architectures
  extract_eq : ∀ object, registry.extract object = other.extract object

/-- Registries whose registrations end in the same backends give the same answers. -/
theorem Records.answersAs {history others : List Backend} {registry other : Registry}
    (h : Records history registry.entries) (hother : Records others other.entries)
    (hlatest : ∀ architecture, latest? others architecture = latest? history architecture) :
    other.AnswersAs registry := by
  have hperm := h.perm_of_latest?_eq hother hlatest
  have hget : ∀ architecture, other.get? architecture = registry.get? architecture := by
    intro architecture
    rw [hother.get?_eq, h.get?_eq, hlatest]
  have harchitectures := h.architectures_eq_of_perm hperm
  refine ⟨hget, h.backends_eq_of_perm hperm, harchitectures, ?_⟩
  intro object
  rw [extract, extract, hget, harchitectures]

/-- **A registry dispatches to the backends registered last.** However backends are registered, only
the last one for each architecture counts: histories that end in the same backends leave registries
that give the same answers, in whatever order they keep their entries. -/
theorem dispatches_to_latest (history : List Backend) :
    DispatchesTo history (ofHistory history) ∧
      ∀ (others : List Backend) (registry : Registry),
        (∀ architecture, latest? others architecture = latest? history architecture) →
        registry.entries.Perm (ofHistory others).entries →
        registry.AnswersAs (ofHistory history) := by
  have hrecords := Records.ofHistory history
  refine ⟨⟨hrecords.get?_eq, ?_, hrecords.filter_backends, hrecords.pairwise_rank,
    Records.architectures_perm _, hrecords.pairwise_architectures, hrecords.extract_eq⟩, ?_⟩
  · intro architecture
    rw [hrecords.get?_eq, latest?_eq_none_iff]
  · intro others registry hlatest hperm
    have hregistry : Records others registry.entries := (Records.ofHistory others).perm hperm
    exact hrecords.answersAs hregistry hlatest

/-- A backend of an architecture that finds nothing. -/
def sampleBackend (architecture : Architecture) (name : String) : Backend where
  architecture := architecture
  name := name
  encoding := none
  extract _ := .ok (.empty architecture (some name))

/-- Registrations of which the first is replaced by the last. -/
def replacedHistory : List Backend :=
  [sampleBackend .aarch64 "old", sampleBackend (.other 10) "ten", sampleBackend .amdgpu "amd",
    sampleBackend (.other 9) "nine", sampleBackend .aarch64 "new"]

/-- Registrations without the one that is replaced, the other way round. -/
def plainHistory : List Backend :=
  [sampleBackend .aarch64 "new", sampleBackend (.other 9) "nine", sampleBackend .amdgpu "amd",
    sampleBackend (.other 10) "ten"]

/-- The two histories end in the same backends, whatever the order in which they are kept. Machine
nine is listed before machine ten, its name behind the other's. -/
theorem dispatches_to_latest_replaced :
    (∀ architecture, latest? plainHistory architecture = latest? replacedHistory architecture) ∧
      Registry.AnswersAs ⟨plainHistory⟩ (ofHistory replacedHistory) ∧
      (ofHistory replacedHistory).backends.map Backend.name = ["amd", "new", "nine", "ten"] ∧
      (ofHistory replacedHistory).architectures =
        ["aarch64", "amdgpu", "machine-10", "machine-9"] := by
  have hlatest : ∀ architecture,
      latest? plainHistory architecture = latest? replacedHistory architecture := by
    intro architecture
    cases architecture with
    | other machine =>
      by_cases hnine : machine = 9
      · subst hnine
        rfl
      · by_cases hten : machine = 10
        · subst hten
          rfl
        · simp [latest?, plainHistory, replacedHistory, sampleBackend, Ne.symm hnine,
            Ne.symm hten]
    | _ => rfl
  have hperm : plainHistory.Perm (ofHistory plainHistory).entries :=
    (List.reverse_perm plainHistory).symm
  obtain ⟨-, hsame⟩ := dispatches_to_latest replacedHistory
  have hanswers := hsame plainHistory ⟨plainHistory⟩ hlatest hperm
  refine ⟨hlatest, hanswers, ?_, ?_⟩
  · simp [ofHistory, replacedHistory, register, empty, sampleBackend, backends, Architecture.rank,
      List.mergeSort]
  · have hnames : ((ofHistory replacedHistory).entries.map fun b => b.architecture.name) =
        ["aarch64", "machine-9", "amdgpu", "machine-10"] := by decide
    rw [architectures, hnames]
    simp [List.mergeSort]

end KernelCatalog.Registry
