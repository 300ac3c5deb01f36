import KernelCatalog.Project.Basic
import KernelCatalog.Proofs.Files.Keep
import KernelCatalog.Proofs.Json.Exchange

/-!
# Saved configurations

A configuration is saved as the JSON of its fields, laid out over lines. Each part of it is read
back from its JSON, whether its optional fields are there or not, and the JSON is read back from its
text, so what is loaded is what was saved.

* `Target.ofJson?_toJson`, `Config.ofJson?_toJson`: what is read from the JSON of a configuration.
* `Config.parse_render`: what is read from its text.
* `Config.load_of_save`: what is loaded after it is saved.
-/

namespace KernelCatalog

/-! ## Parts of a configuration -/

namespace CompilerChoice

/-- Texts are kept as texts. -/
theorem ofItems?_map_str (room : Nat) (args : List String) :
    Datum.ofItems? room (args.map .str) = some (args.map .text) := by
  induction args with
  | nil => rfl
  | cons arg rest ih => rw [List.map_cons, Datum.ofItems?, Datum.ofJson?, ih]; rfl

/-- **The choice of a compiler is read back** from a JSON value that does not lie too deep. -/
theorem ofJson?_toJson (choice : CompilerChoice) {around : Nat} (h : around + 2 ≤ Json.depthLimit) :
    ofJson? choice.toJson around = some choice := by
  obtain ⟨room, hroom⟩ : ∃ room, Json.depthLimit - around = room + 2 :=
    ⟨Json.depthLimit - around - 2, by omega⟩
  rw [ofJson?, hroom]
  cases choice with
  | clang => rfl
  | prebuilt => rfl
  | command program args =>
    have hargs : (args.map Datum.text).mapM Datum.text? = some args :=
      Json.mapM_map_eq_some fun _ _ => rfl
    simp only [toJson, Datum.ofJson?, Datum.ofMembers?, ofItems?_map_str, Option.map_some,
      Option.bind_some, ofDatum?]
    simp [Datum.isText, Datum.text?, ofKind?, Datum.record?, Datum.knownFields, Datum.nameAmong?,
      Datum.isKey, Datum.required?, Datum.preset?, List.lookup_cons, Datum.list?, hargs]

end CompilerChoice

namespace Target

/-- **A target is read back** from a JSON value that does not lie too deep. -/
theorem ofJson?_toJson (target : Target) {around : Nat} (h : around + 3 ≤ Json.depthLimit) :
    ofJson? target.toJson around = some target := by
  have hroom : around + 1 + 2 ≤ Json.depthLimit := by omega
  have hcompiler := target.compiler.ofJson?_toJson hroom
  have harchitecture := target.architecture.ofJson?_toJson
  obtain ⟨name, source, architecture, processor, compiler, generated⟩ := target
  cases processor <;> cases generated <;>
    simp [ofJson?, toJson, optionalMember, Json.record?_obj, fieldNames, Json.required?,
      Json.optional?, Json.preset?, List.lookup_cons, hcompiler, harchitecture, Json.text?]

end Target

namespace Config

/-- **A configuration is read back** from its JSON. -/
theorem ofJson?_toJson (config : Config) : ofJson? config.toJson = some config := by
  have hledger : LedgerSetting.ofJson? config.ledger.toJson = some config.ledger := by
    simp [LedgerSetting.ofJson?, LedgerSetting.toJson, Json.record?_obj, Json.required?,
      Json.text?]
  have htargets : Json.list? (fun target => Target.ofJson? target 2)
      (.arr (config.targets.map Target.toJson)) = some config.targets :=
    Json.mapM_map_eq_some fun target _ => target.ofJson?_toJson (by decide)
  obtain ⟨name, description, configVersion, ledger, typesPath, targets⟩ := config
  cases description <;>
    simp [ofJson?, toJson, Json.strOrNull, Json.record?_obj, fieldNames, Json.required?,
      Json.optional?, Json.preset?, List.lookup_cons, Json.text?, hledger, htargets]

end Config

/-! ## Texts of configurations -/

theorem CompilerChoice.isPlain_toJson (choice : CompilerChoice) :
    choice.toJson.isPlain = true := by
  cases choice with
  | command program args =>
    have hargs : (Json.arr (args.map .str)).isPlain = true :=
      Json.isPlain_arr_map (fun _ => rfl) args
    rw [toJson, Json.isPlain_obj_cons, Json.isPlain_obj_cons, Json.isPlain_obj_cons]
    exact ⟨rfl, rfl, hargs, rfl⟩
  | _ => rfl

theorem Target.isPlain_toJson (target : Target) : target.toJson.isPlain = true := by
  have harchitecture := target.architecture.isPlain_toJson
  have hoptional : ∀ name text, ∀ member ∈ optionalMember name text, member.2.isPlain = true := by
    intro name text member hmember
    cases text with
    | none => exact absurd hmember (by simp [optionalMember])
    | some text =>
      obtain rfl := List.mem_singleton.mp hmember
      rfl
  rw [toJson, Json.isPlain, Json.havePlain_iff, List.forall_mem_append, List.forall_mem_append,
    List.forall_mem_append, List.forall_mem_singleton]
  refine ⟨⟨⟨?_, hoptional _ _⟩, target.compiler.isPlain_toJson⟩, hoptional _ _⟩
  simp [Json.isPlain, harchitecture]

/-- A text is read back from its bytes. -/
theorem Files.readText_of_read {files : Files} {path : Path} {text : String}
    (h : files.read path = .ok (Text.toBytes text)) : files.readText path = .ok text := by
  simp [readText, h, bind, Except.bind]

namespace Config

theorem isPlain_toJson (config : Config) : config.toJson.isPlain = true := by
  have htargets := Json.isPlain_arr_map Target.isPlain_toJson config.targets
  rw [toJson, Json.isPlain_obj_cons, Json.isPlain_obj_cons, Json.isPlain_obj_cons,
    Json.isPlain_obj_cons, Json.isPlain_obj_cons, Json.isPlain_obj_cons]
  exact ⟨rfl, Json.isPlain_strOrNull _, rfl, rfl, rfl, htargets, rfl⟩

/-- **A configuration is read back** from its text. -/
theorem parse_render (config : Config) : parse config.render = .ok config := by
  rw [parse, render, Json.parse?_pretty config.isPlain_toJson, Option.bind_some,
    config.ofJson?_toJson]

/-! ## Files of configurations -/

/-- What is known of a configuration that was saved: it is valid, and its file holds its text. -/
theorem of_save_eq_ok {files after : Files} {layout : Layout} {config : Config}
    (htree : files.IsTree) (h : save files layout config = (.ok (), after)) :
    config.validate layout = .ok () ∧ after.readText layout.configPath = .ok config.render := by
  unfold save at h
  split at h
  · exact absurd (congrArg Prod.fst h) (by simp)
  · next hvalid =>
    split at h
    · exact absurd (congrArg Prod.fst h) (by simp)
    · next made hmake =>
      split at h
      · exact absurd (congrArg Prod.fst h) (by simp)
      · next written hwrite =>
        obtain rfl := congrArg Prod.snd h
        refine ⟨hvalid, ?_⟩
        have hmade : made.IsTree := by
          have hkeeps := Files.keeps_ensureTree (layout.metaDir.components.length + 2)
            layout.metaDir htree
          rw [show Files.ensureTree _ files layout.metaDir = _ from hmake] at hkeeps
          exact hkeeps.isTree
        obtain ⟨-, permissions, hfile⟩ := Files.keeps_writeContent hmade hwrite
        exact Files.readText_of_read (Files.read_eq_ok_iff.mpr ⟨_, permissions, hfile, rfl⟩)

/-- **What is loaded is what was saved**, in every field, and the targets in their order. -/
theorem load_of_save {files after : Files} {layout : Layout} {config : Config}
    (htree : files.IsTree) (h : save files layout config = (.ok (), after)) :
    load after layout = .ok config := by
  obtain ⟨hvalid, hread⟩ := of_save_eq_ok htree h
  have htext : ofText layout config.render = .ok config := by
    unfold ofText
    rw [parse_render]
    simp only [withContext, bind, Except.bind, hvalid]
  unfold load
  rw [hread]
  exact htext

/-- A configuration with characters that are escaped, an architecture without a name, and targets
with and without their optional fields. -/
def oddConfig : Config where
  name := "quote \" backslash \\ bell \x07 é"
  description := some "two\nlines"
  configVersion := "0.1.0"
  ledger := ⟨".kbridge/builds.db"⟩
  typesPath := "bridge_core"
  targets := [⟨"first", "a.hip", .other 65535, some "gfx90a", .command "cc" ["-o", "", "\t"], none⟩,
    ⟨"second", "b.o", .cuda, none, .prebuilt, some "out/b.rs"⟩]

/-- Such a configuration is loaded as it was saved. -/
theorem load_of_save_odd : (Files.empty ["p"]).IsTree ∧ ∃ after,
    save (Files.empty ["p"]) ⟨⟨"/p"⟩⟩ oddConfig = (.ok (), after) ∧
      load after ⟨⟨"/p"⟩⟩ = .ok oddConfig := by
  have htree : (Files.empty ["p"]).IsTree := Files.isTree_of_entries (by decide)
  have hsaved : (save (Files.empty ["p"]) ⟨⟨"/p"⟩⟩ oddConfig).1.isOk = true := by decide +kernel
  refine ⟨htree, ?_⟩
  rcases hsave : save (Files.empty ["p"]) ⟨⟨"/p"⟩⟩ oddConfig with ⟨_ | _, after⟩
  · rw [hsave] at hsaved
    exact absurd hsaved (by simp [Except.isOk, Except.toBool])
  · exact ⟨after, rfl, load_of_save htree hsave⟩

end Config

end KernelCatalog
