import KernelCatalog.Extraction.Descriptor
import KernelCatalog.Proofs.Kernel.Signature
import KernelCatalog.Proofs.Object.Content

/-!
# Which descriptors are read

`Decodes` says, field by field, what a descriptor symbol tells about an overload, and
`readOverload_eq_ok_iff` shows that reading a descriptor finds exactly that. `collect` walks the
symbol table with the names it has met: it gives one overload for each descriptor when all of them
are sound and no name comes twice (`collect_eq_ok_iff`), and stops at the first symbol that offends
otherwise (`firstOffender_of_collect`). An object is read exactly when it is well formed.
-/

namespace KernelCatalog

/-- A symbol is code called `name`: a function of that name that a section defines. -/
structure Symbol.IsCode (symbol : Symbol) (name : String) : Prop where
  name_eq : symbol.name = name
  isFunction : symbol.kind = .function
  isDefined : symbol.sectionIndex ≠ none

theorem Symbol.isCode_iff {symbol : Symbol} {name : String} :
    symbol.IsCode name ↔
      (symbol.name = name ∧ symbol.kind = .function) ∧ symbol.sectionIndex ≠ none := by
  constructor
  · rintro ⟨hname, hkind, hsection⟩
    exact ⟨⟨hname, hkind⟩, hsection⟩
  · rintro ⟨⟨hname, hkind⟩, hsection⟩
    exact ⟨hname, hkind, hsection⟩

instance (symbol : Symbol) (name : String) : Decidable (symbol.IsCode name) :=
  decidable_of_iff' _ Symbol.isCode_iff

namespace Descriptor

/-! ## Names of descriptors -/

/-- A symbol is a descriptor when its name ends in `.kd`. -/
def IsDescriptor (symbol : Symbol) : Prop := ∃ base, symbol.name = base ++ ".kd"

/-- The base name of a descriptor is its name without the ending. -/
theorem baseName?_eq_some_iff {name base : String} :
    baseName? name = some base ↔ name = base ++ ".kd" := by
  rw [baseName?, Option.map_eq_some_iff, ← String.toList_inj, String.toList_append]
  constructor
  · rintro ⟨front, hfront, rfl⟩
    rw [String.toList_ofList]
    exact Text.before?_eq_some.mp hfront
  · intro h
    exact ⟨base.toList, Text.before?_eq_some.mpr h, String.ofList_toList⟩

/-- A symbol is a descriptor exactly when its name has a base name. -/
theorem isSome_baseName?_iff {symbol : Symbol} :
    (baseName? symbol.name).isSome ↔ IsDescriptor symbol := by
  simp only [Option.isSome_iff_exists, baseName?_eq_some_iff, IsDescriptor]

instance : DecidablePred IsDescriptor := fun _ => decidable_of_iff _ isSome_baseName?_iff

/-- The descriptors among the symbols, in order. -/
def descriptors (symbols : List Symbol) : List Symbol := symbols.filter IsDescriptor

theorem mem_descriptors {symbols : List Symbol} {symbol : Symbol} :
    symbol ∈ descriptors symbols ↔ symbol ∈ symbols ∧ IsDescriptor symbol := by
  rw [descriptors, List.mem_filter, decide_eq_true_iff]

theorem base_injective {base base' : String} (h : base ++ ".kd" = base' ++ ".kd") :
    base = base' := by
  have hname := baseName?_eq_some_iff.mpr h
  rw [baseName?_eq_some_iff.mpr rfl] at hname
  exact Option.some.inj hname

/-! ## The contents of a descriptor -/

/-- The bytes start with the launch resources: three words of four bytes, one behind the other. -/
structure Stores (order : ByteOrder) (bytes : Bytes) (launch : Launch) : Prop where
  group : order.read? 4 bytes 0 = some launch.groupSegmentSize.toNat
  scratch : order.read? 4 bytes 4 = some launch.privateSegmentSize.toNat
  kernarg : order.read? 4 bytes 8 = some launch.kernargSize.toNat

/-- A word of the descriptor is the whole number that its four bytes store. -/
theorem word_eq_iff {order : ByteOrder} {bytes : Bytes} {offset : Nat} {w : UInt32}
    (h : offset + 4 ≤ bytes.length) :
    word order bytes offset = w ↔ order.read? 4 bytes offset = some w.toNat := by
  have hslice : bytes.slice? offset 4 = some ((bytes.drop offset).take 4) :=
    Bytes.slice?_eq_some.mpr ⟨h, rfl⟩
  have hlt := order.value_lt_of_length (Bytes.length_of_slice? hslice)
  rw [ByteOrder.read?, hslice, Option.map_some, Option.some.injEq, word, ← UInt32.toNat_inj,
    UInt32.toNat_ofNat_of_lt' hlt]

/-- The launch resources of a descriptor are those it stores. -/
theorem launchOf_eq_iff {order : ByteOrder} {bytes : Bytes} {launch : Launch}
    (h : 12 ≤ bytes.length) : launchOf order bytes = launch ↔ Stores order bytes launch := by
  rcases launch with ⟨group, scratch, kernarg⟩
  rw [launchOf, Launch.mk.injEq, word_eq_iff (by omega), word_eq_iff (by omega),
    word_eq_iff (by omega)]
  constructor
  · rintro ⟨hgroup, hscratch, hkernarg⟩
    exact ⟨hgroup, hscratch, hkernarg⟩
  · rintro ⟨hgroup, hscratch, hkernarg⟩
    exact ⟨hgroup, hscratch, hkernarg⟩

theorem length_of_covers {object : Object} {symbol : Symbol} {bytes : Bytes}
    (hcovers : object.Covers symbol bytes) (hsize : symbol.size = 64) : bytes.length = 64 := by
  obtain ⟨_, _, _, _, -, -, -, hlength, -⟩ := hcovers
  rw [hlength, hsize]
  rfl

/-- Launch resources are read from the bytes that a symbol of the right size covers, when they are
enough for the parameters. -/
theorem readLaunch_eq_ok_iff {object : Object} {symbol : Symbol} {params : List Param}
    {launch : Launch} :
    readLaunch object symbol params = .ok launch ↔
      symbol.size = 64 ∧ (∃ bytes, object.Covers symbol bytes ∧
        Stores object.byteOrder bytes launch) ∧ Param.blockSize params ≤ launch.kernargSize := by
  unfold readLaunch
  by_cases hsize : symbol.size = size
  · rw [if_neg (not_not.mpr hsize)]
    constructor
    · intro h
      split at h
      · exact absurd h (by simp)
      · next bytes hbytes =>
        have hcovers := Object.symbolBytes?_eq_some_iff.mp hbytes
        have hlength := length_of_covers hcovers hsize
        simp only at h
        split at h
        · exact absurd h (by simp)
        · next hblock =>
          obtain rfl := Except.ok.inj h
          exact ⟨hsize, ⟨bytes, hcovers, (launchOf_eq_iff (by omega)).mp rfl⟩, UInt32.not_lt.mp hblock⟩
    · rintro ⟨-, ⟨bytes, hcovers, hstores⟩, hblock⟩
      have hlength := length_of_covers hcovers hsize
      have hlaunch := (launchOf_eq_iff (by omega)).mpr hstores
      rw [Object.symbolBytes?_eq_some_iff.mpr hcovers]
      simp only [hlaunch]
      rw [if_neg (UInt32.not_lt.mpr hblock)]
  · rw [if_pos hsize]
    constructor
    · intro h
      exact absurd h (by simp)
    · rintro ⟨hsize', -⟩
      exact absurd hsize' hsize

/-! ## One descriptor -/

/-- The code of a name is the first symbol that is code called so. -/
theorem codeSymbol?_eq_some_iff {object : Object} {name : String} {symbol : Symbol} :
    codeSymbol? object name = some symbol ↔ object.First (·.IsCode name) symbol := by
  refine Object.find?_eq_some_iff_first fun s => ?_
  rw [Bool.and_eq_true, Bool.and_eq_true, beq_iff_eq, beq_iff_eq, Option.isSome_iff_ne_none,
    Symbol.isCode_iff]

/-- What a descriptor symbol tells about an overload. -/
structure Decodes (object : Object) (symbol : Symbol) (found : Found) : Prop where
  /-- The symbol is called like the code, with `.kd` behind it. -/
  name_eq : symbol.name = found.overload.symbol ++ ".kd"
  isData : symbol.kind = .object
  size_eq : symbol.size = 64
  /-- The name of the code tells the kernel and the parameters. -/
  names : Signature.Names found.overload.symbol found.kernel found.overload.params
  /-- The launch resources are stored in the descriptor. -/
  launch : ∃ bytes, object.Covers symbol bytes ∧
    Stores object.byteOrder bytes found.overload.launch
  block_le : Param.blockSize found.overload.params ≤ found.overload.launch.kernargSize
  /-- Address and section are those of the code. -/
  code : ∃ code, object.First (·.IsCode found.overload.symbol) code ∧
    found.overload.address = code.address ∧ found.codeSection = code.sectionIndex

/-- Reading a descriptor finds exactly what it tells. -/
theorem readOverload_eq_ok_iff {object : Object} {symbol : Symbol} {base : String} {found : Found}
    (hname : symbol.name = base ++ ".kd") :
    readOverload object symbol base = .ok found ↔ Decodes object symbol found := by
  unfold readOverload
  constructor
  · intro h
    split at h
    · exact absurd h (by simp)
    · next hkind =>
      split at h
      · exact absurd h (by simp)
      · next kernel signature hsplit =>
        split at h
        · exact absurd h (by simp)
        · next params hparse =>
          split at h
          · exact absurd h (by simp)
          · next launch hlaunch =>
            split at h
            · exact absurd h (by simp)
            · next code hcode =>
              obtain rfl := Except.ok.inj h
              obtain ⟨hsize, hstored, hblock⟩ := readLaunch_eq_ok_iff.mp hlaunch
              exact ⟨hname, not_not.mp hkind, hsize, ⟨signature, hsplit, hparse⟩, hstored, hblock,
                code, codeSymbol?_eq_some_iff.mp hcode, rfl, rfl⟩
  · rintro ⟨hname', hkind, hsize, ⟨signature, hsplit, hparse⟩, hstored, hblock,
      code, hcode, haddress, hsection⟩
    obtain rfl := base_injective (hname.symm.trans hname')
    rw [if_neg (not_not.mpr hkind)]
    simp only [hsplit, hparse, readLaunch_eq_ok_iff.mpr ⟨hsize, hstored, hblock⟩,
      codeSymbol?_eq_some_iff.mpr hcode, ← haddress, ← hsection]

/-- What is asked of the descriptor of the code called `base`. -/
structure Sound (object : Object) (symbol : Symbol) (base : String) : Prop where
  isData : symbol.kind = .object
  readable : ∃ kernel params, Signature.Names base kernel params
  size_eq : symbol.size = 64
  inside : ∃ bytes, object.Covers symbol bytes
  /-- The argument block that the descriptor states is large enough. -/
  enough : ∀ kernel params bytes, Signature.Names base kernel params →
    object.Covers symbol bytes → ∃ kernarg, object.byteOrder.read? 4 bytes 8 = some kernarg ∧
      (Param.blockSize params).toNat ≤ kernarg
  hasCode : ∃ code ∈ object.symbols, code.IsCode base

/-- A descriptor tells something about an overload exactly when it is sound. -/
theorem exists_decodes_iff {object : Object} {symbol : Symbol} {base : String}
    (hname : symbol.name = base ++ ".kd") :
    (∃ found, Decodes object symbol found) ↔ Sound object symbol base := by
  constructor
  · rintro ⟨found, h⟩
    obtain rfl := base_injective (hname.symm.trans h.name_eq)
    obtain ⟨bytes, hcovers, hstores⟩ := h.launch
    obtain ⟨code, hcode, -⟩ := h.code
    refine ⟨h.isData, ⟨_, _, h.names⟩, h.size_eq, ⟨bytes, hcovers⟩, ?_, code, hcode.mem, hcode.1⟩
    intro kernel params bytes' hnames hcovers'
    -- there is one reading of the name and one choice of the bytes
    obtain ⟨-, rfl⟩ := h.names.unique hnames
    have hbytes := Object.symbolBytes?_eq_some_iff.mpr hcovers
    rw [Object.symbolBytes?_eq_some_iff.mpr hcovers'] at hbytes
    obtain rfl := Option.some.inj hbytes
    exact ⟨_, hstores.kernarg, UInt32.le_iff_toNat_le.mp h.block_le⟩
  · intro h
    obtain ⟨kernel, params, hnames⟩ := h.readable
    obtain ⟨bytes, hcovers⟩ := h.inside
    obtain ⟨symbol', hmem, hcode'⟩ := h.hasCode
    obtain ⟨code, hcode⟩ := Object.exists_first (·.IsCode base) hmem hcode'
    have hlength := length_of_covers hcovers h.size_eq
    have hstores : Stores object.byteOrder bytes (launchOf object.byteOrder bytes) :=
      (launchOf_eq_iff (by omega)).mp rfl
    obtain ⟨kernarg, hkernarg, hle⟩ := h.enough kernel params bytes hnames hcovers
    have hkernarg' := Option.some.inj (hkernarg.symm.trans hstores.kernarg)
    refine ⟨⟨kernel, code.sectionIndex, base, code.address, params, launchOf object.byteOrder bytes⟩,
      hname, h.isData, h.size_eq, hnames, ⟨bytes, hcovers, hstores⟩, ?_, code, hcode, rfl, rfl⟩
    rw [UInt32.le_iff_toNat_le, ← hkernarg']
    exact hle

/-! ## The walk over the symbol table -/

/-- A symbol that is no descriptor is passed over. -/
theorem collect_cons_of_not_isDescriptor {object : Object} {seen : List String} {symbol : Symbol}
    {rest : List Symbol} (h : ¬ IsDescriptor symbol) :
    collect object seen (symbol :: rest) = collect object seen rest := by
  have hnone : baseName? symbol.name = none := by
    rw [← Option.not_isSome_iff_eq_none, isSome_baseName?_iff]
    exact h
  rw [collect.eq_def]
  simp only [hnone]

/-- The walk goes on behind a descriptor that is new and tells about an overload. -/
theorem collect_cons_of_decodes {object : Object} {seen : List String} {symbol : Symbol}
    {rest : List Symbol} {found : Found} (hfresh : symbol.name ∉ seen)
    (h : Decodes object symbol found) :
    collect object seen (symbol :: rest) =
      (collect object (symbol.name :: seen) rest).map (found :: ·) := by
  rw [collect.eq_def]
  simp only [baseName?_eq_some_iff.mpr h.name_eq, List.contains_iff_mem, hfresh, if_false,
    (readOverload_eq_ok_iff h.name_eq).mpr h]
  cases collect object (symbol.name :: seen) rest with
  | error e => rfl
  | ok more => rfl

/-- The walk stops at a descriptor that was met before or tells about no overload. -/
theorem collect_cons_eq_error {object : Object} {seen : List String} {symbol : Symbol}
    (hdescriptor : IsDescriptor symbol)
    (h : symbol.name ∈ seen ∨ ¬ ∃ found, Decodes object symbol found) (rest : List Symbol) :
    ∃ fault, collect object seen (symbol :: rest) = .error (symbol.name, fault) := by
  obtain ⟨base, hbase⟩ := hdescriptor
  rw [collect.eq_def]
  simp only [baseName?_eq_some_iff.mpr hbase, List.contains_iff_mem]
  by_cases hseen : symbol.name ∈ seen
  · exact ⟨.duplicate, by rw [if_pos hseen]⟩
  · rw [if_neg hseen]
    cases hread : readOverload object symbol base with
    | error fault => exact ⟨fault, rfl⟩
    | ok found =>
      have hdecodes := (readOverload_eq_ok_iff hbase).mp hread
      exact absurd ⟨found, hdecodes⟩ (h.resolve_left hseen)

/-- The walk comes to its end behind a descriptor exactly when that is new and tells about an
overload, and the walk over the rest comes to its end. -/
theorem collect_cons_eq_ok_iff {object : Object} {seen : List String} {symbol : Symbol}
    {rest : List Symbol} {found : List Found} (hdescriptor : IsDescriptor symbol) :
    collect object seen (symbol :: rest) = .ok found ↔
      symbol.name ∉ seen ∧ ∃ first more, Decodes object symbol first ∧
        collect object (symbol.name :: seen) rest = .ok more ∧ found = first :: more := by
  constructor
  · intro h
    by_cases hgood : symbol.name ∉ seen ∧ ∃ first, Decodes object symbol first
    · obtain ⟨hfresh, first, hfirst⟩ := hgood
      rw [collect_cons_of_decodes hfresh hfirst] at h
      cases hmore : collect object (symbol.name :: seen) rest with
      | error e =>
        rw [hmore] at h
        exact absurd h (by simp [Except.map])
      | ok more =>
        rw [hmore] at h
        exact ⟨hfresh, first, more, hfirst, rfl, (Except.ok.inj h).symm⟩
    · have hbad : symbol.name ∈ seen ∨ ¬ ∃ first, Decodes object symbol first := by tauto
      obtain ⟨fault, hfault⟩ := collect_cons_eq_error hdescriptor hbad rest
      rw [hfault] at h
      exact absurd h (by simp)
  · rintro ⟨hfresh, first, more, hfirst, hmore, rfl⟩
    rw [collect_cons_of_decodes hfresh hfirst, hmore]
    rfl

/-- The walk gives one overload for each descriptor, in order, exactly when each of them tells about
one and none has a name that was met before. -/
theorem collect_eq_ok_iff {object : Object} {seen : List String} {symbols : List Symbol}
    {found : List Found} :
    collect object seen symbols = .ok found ↔
      List.Forall₂ (Decodes object) (descriptors symbols) found ∧
        ((descriptors symbols).map Symbol.name).Nodup ∧
        ∀ symbol ∈ descriptors symbols, symbol.name ∉ seen := by
  -- every descriptor adds its name, so the claim is made for all names met before
  induction symbols generalizing seen found with
  | nil => simp [collect, descriptors, eq_comm]
  | cons symbol rest ih =>
    by_cases hdescriptor : IsDescriptor symbol
    · have hcons : descriptors (symbol :: rest) = symbol :: descriptors rest := by
        simp [descriptors, hdescriptor]
      rw [collect_cons_eq_ok_iff hdescriptor, hcons, List.forall₂_cons_left_iff, List.map_cons,
        List.nodup_cons]
      constructor
      · rintro ⟨hfresh, first, more, hfirst, hmore, rfl⟩
        obtain ⟨hall, hnodup, hseen⟩ := ih.mp hmore
        -- the rest was walked with this name among those met
        refine ⟨⟨first, more, hfirst, hall, rfl⟩, ⟨?_, hnodup⟩, ?_⟩
        · rw [List.mem_map]
          rintro ⟨s, hs, heq⟩
          exact hseen s hs (by simp [heq])
        · intro s hs
          rcases List.mem_cons.mp hs with rfl | hs
          · exact hfresh
          · exact fun hmem => hseen s hs (List.mem_cons_of_mem _ hmem)
      · rintro ⟨⟨first, more, hfirst, hall, rfl⟩, ⟨hnew, hnodup⟩, hseen⟩
        refine ⟨hseen symbol (by simp), first, more, hfirst, ih.mpr ⟨hall, hnodup, ?_⟩, rfl⟩
        intro s hs hmem
        rcases List.mem_cons.mp hmem with heq | hmem
        · exact hnew (heq ▸ List.mem_map_of_mem hs)
        · exact hseen s (List.mem_cons_of_mem _ hs) hmem
    · have hskip : descriptors (symbol :: rest) = descriptors rest := by
        simp [descriptors, hdescriptor]
      rw [collect_cons_of_not_isDescriptor hdescriptor, hskip]
      exact ih

/-- A descriptor offends behind the symbols `before` when it is not sound or repeats the name of one
of them. -/
def Offends (object : Object) (before : List Symbol) (symbol : Symbol) : Prop :=
  ∃ base, symbol.name = base ++ ".kd" ∧
    (¬ Sound object symbol base ∨ ∃ s ∈ before, s.name = symbol.name)

/-- `symbol` is the first of `symbols` that offends, when `prior` stand in front of them. -/
def FirstOffender (object : Object) (prior symbols : List Symbol) (symbol : Symbol) : Prop :=
  ∃ before after, symbols = before ++ symbol :: after ∧ Offends object (prior ++ before) symbol ∧
    ∀ front s back, before = front ++ s :: back → ¬ Offends object (prior ++ front) s

/-- A symbol that does not offend leaves the first offender to the rest. -/
theorem FirstOffender.cons {object : Object} {prior rest : List Symbol} {first symbol : Symbol}
    (hfirst : ¬ Offends object prior first)
    (h : FirstOffender object (prior ++ [first]) rest symbol) :
    FirstOffender object prior (first :: rest) symbol := by
  obtain ⟨before, after, rfl, hoffends, hbefore⟩ := h
  refine ⟨first :: before, after, rfl, by rwa [← List.append_cons] at hoffends, ?_⟩
  intro front s back hsplit
  cases front with
  | nil =>
    obtain ⟨rfl, -⟩ := List.cons.inj hsplit
    rwa [List.append_nil]
  | cons c front =>
    obtain ⟨rfl, htail⟩ := List.cons.inj hsplit
    rw [List.append_cons]
    exact hbefore front s back htail

/-- `seen` holds the names of the descriptors among the symbols `prior`. -/
def Met (seen : List String) (prior : List Symbol) : Prop :=
  ∀ s, IsDescriptor s → (s.name ∈ seen ↔ ∃ p ∈ prior, p.name = s.name)

/-- A descriptor is met by noting its name. -/
theorem Met.note {seen : List String} {prior : List Symbol} (h : Met seen prior) (symbol : Symbol) :
    Met (symbol.name :: seen) (prior ++ [symbol]) := by
  intro s hs
  rw [List.mem_cons, h s hs]
  simp only [List.mem_append, List.mem_singleton, or_and_right, exists_or, exists_eq_left]
  rw [or_comm, eq_comm]

/-- A symbol that is no descriptor need not be noted. -/
theorem Met.skip {seen : List String} {prior : List Symbol} (h : Met seen prior) {symbol : Symbol}
    (hsymbol : ¬ IsDescriptor symbol) : Met seen (prior ++ [symbol]) := by
  intro s hs
  rw [h s hs]
  simp only [List.mem_append, List.mem_singleton, or_and_right, exists_or, exists_eq_left]
  refine (or_iff_left fun heq => hsymbol ?_).symm
  obtain ⟨base, hbase⟩ := hs
  exact ⟨base, heq.trans hbase⟩

/-- What the walk stops at is what offends. -/
theorem offends_iff {object : Object} {seen : List String} {prior : List Symbol} {symbol : Symbol}
    (hmet : Met seen prior) (hdescriptor : IsDescriptor symbol) :
    Offends object prior symbol ↔
      symbol.name ∈ seen ∨ ¬ ∃ found, Decodes object symbol found := by
  rw [hmet symbol hdescriptor, Offends]
  constructor
  · rintro ⟨base, hbase, hbad⟩
    rw [exists_decodes_iff hbase]
    exact hbad.symm
  · intro hbad
    obtain ⟨base, hbase⟩ := hdescriptor
    rw [exists_decodes_iff hbase] at hbad
    exact ⟨base, hbase, hbad.symm⟩

/-- The walk stops at the first symbol that offends. -/
theorem firstOffender_of_collect {object : Object} {prior symbols : List Symbol}
    {seen : List String} {name : String} {fault : Fault} (hmet : Met seen prior)
    (h : collect object seen symbols = .error (name, fault)) :
    ∃ symbol, FirstOffender object prior symbols symbol ∧ symbol.name = name := by
  -- `prior` grows by every symbol that is passed, the names met only by descriptors
  induction symbols generalizing prior seen with
  | nil => exact absurd h (by simp [collect])
  | cons first rest ih =>
    by_cases hdescriptor : IsDescriptor first
    · by_cases hfirst : Offends object prior first
      · have hbad := (offends_iff hmet hdescriptor).mp hfirst
        obtain ⟨fault', hfault⟩ := collect_cons_eq_error hdescriptor hbad rest
        rw [hfault] at h
        obtain ⟨rfl, -⟩ := Prod.mk.inj (Except.error.inj h)
        refine ⟨first, ⟨[], rest, rfl, by rwa [List.append_nil], ?_⟩, rfl⟩
        intro front s back hsplit
        exact absurd hsplit (by simp)
      · have hgood := mt (offends_iff hmet hdescriptor).mpr hfirst
        rw [not_or, not_not] at hgood
        obtain ⟨hfresh, found, hfound⟩ := hgood
        rw [collect_cons_of_decodes hfresh hfound] at h
        cases hrest : collect object (first.name :: seen) rest with
        | error e =>
          rw [hrest] at h
          obtain rfl := Except.error.inj h
          obtain ⟨symbol, hsymbol, hname⟩ := ih (hmet.note first) hrest
          exact ⟨symbol, hsymbol.cons hfirst, hname⟩
        | ok more =>
          rw [hrest] at h
          exact absurd h (by simp [Except.map])
    · rw [collect_cons_of_not_isDescriptor hdescriptor] at h
      obtain ⟨symbol, hsymbol, hname⟩ := ih (hmet.skip hdescriptor) h
      refine ⟨symbol, hsymbol.cons ?_, hname⟩
      rintro ⟨base, hbase, -⟩
      exact hdescriptor ⟨base, hbase⟩

/-! ## The version -/

/-- The object states no version of its encoding, or the first it states is the one that is read. -/
def VersionAccepted (object : Object) : Prop :=
  (∀ s ∈ object.symbols, s.name ≠ "__kcfg_encoding_version") ∨
    ∃ symbol, object.First (·.name = "__kcfg_encoding_version") symbol ∧ symbol.address = 1

/-- The check passes exactly the objects whose version is accepted. -/
theorem checkVersion_eq_ok_iff {object : Object} :
    checkVersion object = .ok () ↔ VersionAccepted object := by
  unfold checkVersion
  cases hnamed : object.symbolNamed? versionSymbol with
  | none =>
    have hnone := List.find?_eq_none.mp hnamed
    refine iff_of_true rfl (Or.inl fun s hs hname => hnone s hs ?_)
    exact beq_iff_eq.mpr hname
  | some symbol =>
    have hfirst := Object.symbolNamed?_eq_some_iff.mp hnamed
    constructor
    · intro h
      simp only at h
      split at h
      · next haddress => exact Or.inr ⟨symbol, hfirst, haddress⟩
      · exact absurd h (by simp)
    · rintro (hnone | ⟨symbol', hfirst', haddress⟩)
      · exact absurd hfirst.1 (hnone symbol hfirst.mem)
      · have hnamed' : object.symbolNamed? versionSymbol = some symbol' :=
          Object.symbolNamed?_eq_some_iff.mpr hfirst'
        obtain rfl := Option.some.inj (hnamed.symm.trans hnamed')
        exact if_pos haddress

/-- A version that is not accepted is reported under the name that states it. -/
theorem checkVersion_eq_error {object : Object} {name : String} {fault : Fault}
    (h : checkVersion object = .error (name, fault)) : name = "__kcfg_encoding_version" := by
  unfold checkVersion at h
  split at h
  · split at h
    · exact absurd h (by simp)
    · exact (Prod.mk.inj (Except.error.inj h)).1.symm
  · exact absurd h (by simp)

/-! ## The object as a whole -/

/-- The object states a version that is read, its descriptors have names of their own, and each of
them is sound. -/
structure WellFormed (object : Object) : Prop where
  version : VersionAccepted object
  distinct : ((descriptors object.symbols).map Symbol.name).Nodup
  sound : ∀ symbol ∈ object.symbols, ∀ base, symbol.name = base ++ ".kd" → Sound object symbol base

/-- The descriptors of a well-formed object each tell about an overload. -/
theorem wellFormed_iff {object : Object} :
    WellFormed object ↔
      VersionAccepted object ∧ ∃ found, collect object [] object.symbols = .ok found := by
  simp only [collect_eq_ok_iff, List.not_mem_nil, not_false_eq_true, implies_true, and_true,
    exists_and_right, Pairing.exists_forall₂_iff]
  constructor
  · rintro ⟨hversion, hdistinct, hsound⟩
    refine ⟨hversion, fun symbol hmem => ?_, hdistinct⟩
    obtain ⟨hsymbol, base, hbase⟩ := mem_descriptors.mp hmem
    exact (exists_decodes_iff hbase).mpr (hsound symbol hsymbol base hbase)
  · rintro ⟨hversion, hdecodes, hdistinct⟩
    refine ⟨hversion, hdistinct, fun symbol hsymbol base hbase => ?_⟩
    have hmem := mem_descriptors.mpr ⟨hsymbol, base, hbase⟩
    exact (exists_decodes_iff hbase).mp (hdecodes symbol hmem)

/-- A version that is not accepted ends the extraction. -/
theorem extract_of_checkVersion {object : Object} {name : String} {fault : Fault}
    (hversion : checkVersion object = .error (name, fault)) :
    backend.extract object = .error (.malformedMetadata name fault.message) := by
  simp only [backend, readCatalog, hversion]

/-- So does the symbol that the walk stops at. -/
theorem extract_of_collect_error {object : Object} {name : String} {fault : Fault}
    (hversion : VersionAccepted object)
    (hcollect : collect object [] object.symbols = .error (name, fault)) :
    backend.extract object = .error (.malformedMetadata name fault.message) := by
  simp only [backend, readCatalog, checkVersion_eq_ok_iff.mpr hversion, hcollect]

/-- A catalog is read when the version is accepted, and it is that of what the walk finds. -/
theorem extract_eq_ok_iff {object : Object} {catalog : Catalog} :
    backend.extract object = .ok catalog ↔
      VersionAccepted object ∧ ∃ found, collect object [] object.symbols = .ok found ∧
        catalogOf object found = catalog := by
  rw [← checkVersion_eq_ok_iff]
  cases hversion : checkVersion object with
  | error e => simp [extract_of_checkVersion hversion]
  | ok _ =>
    have haccepted := checkVersion_eq_ok_iff.mp hversion
    cases hcollect : collect object [] object.symbols with
    | error e => simp [extract_of_collect_error haccepted hcollect]
    | ok found => simp [backend, readCatalog, hversion, hcollect]

/-- **An object is read as a whole or not at all**: it is read exactly when it is well formed, and
otherwise the error names the symbol that states the version when that is not accepted, and else the
first descriptor in the order of the table that offends. -/
theorem extract_isOk_iff_wellFormed_or_firstOffender (object : Object) :
    ((∃ catalog, backend.extract object = .ok catalog) ↔ WellFormed object) ∧
      (¬ WellFormed object → ∃ name reason,
        backend.extract object = .error (.malformedMetadata name reason) ∧
          (¬ VersionAccepted object → name = "__kcfg_encoding_version") ∧
          (VersionAccepted object →
            ∃ symbol, FirstOffender object [] object.symbols symbol ∧ symbol.name = name)) := by
  constructor
  · simp only [extract_eq_ok_iff, wellFormed_iff, exists_and_left]
    refine and_congr_right fun _ => ?_
    constructor
    · rintro ⟨_, found, hcollect, rfl⟩
      exact ⟨found, hcollect⟩
    · rintro ⟨found, hcollect⟩
      exact ⟨_, found, hcollect, rfl⟩
  · intro hbad
    by_cases hversion : VersionAccepted object
    · cases hcollect : collect object [] object.symbols with
      | error e =>
        have hmet : Met [] [] := by simp [Met]
        exact ⟨e.1, e.2.message, extract_of_collect_error hversion hcollect, absurd hversion,
          fun _ => firstOffender_of_collect hmet hcollect⟩
      | ok found => exact absurd (wellFormed_iff.mpr ⟨hversion, found, hcollect⟩) hbad
    · cases hcheck : checkVersion object with
      | error e =>
        exact ⟨e.1, e.2.message, extract_of_checkVersion hcheck,
          fun _ => checkVersion_eq_error hcheck, fun h => absurd h hversion⟩
      | ok _ => exact absurd (checkVersion_eq_ok_iff.mp hcheck) hversion

end Descriptor

end KernelCatalog
