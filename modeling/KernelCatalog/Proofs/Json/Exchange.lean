import KernelCatalog.Architecture
import KernelCatalog.Proofs.Json.Written

/-!
# Exchanged values

A type is exchanged as JSON where every value of it is written as plain JSON from which it is read
back. That is all a reader of texts needs: however the JSON is laid out, the value is read back from
the text, so different values have different texts. Lists are exchanged if their items are, and
records if their fields are, whose names are known and differ.

* `record?_obj`, `list?_arr_map`, `uint32?_nat`, `uint64?_nat`: parts that are read back.
* `Exchanges.of_written`: a value is read back from every text that writes its JSON.
* `Exchanges.compact_inj`, `Exchanges.pretty_inj`: different values have different texts.
-/

namespace KernelCatalog

namespace Json

/-! ## Parts that are read back -/

/-- An object of different known names is a record with its members for fields. -/
theorem record?_obj {names : List String} {members : List (String × Json)}
    (hknown : ∀ name ∈ members.map (·.1), name ∈ names) (hnodup : (members.map (·.1)).Nodup)
    (least : Nat) : record? names least (.obj members) = some members := by
  have hall : members.filter (fun member => names.contains member.1) = members := by
    rw [List.filter_eq_self]
    intro member hmember
    exact List.contains_iff_mem.mpr (hknown _ (List.mem_map_of_mem hmember))
  simp only [record?, hall, hnodup, if_true]

/-- A list is read back if its items are. -/
theorem list?_arr_map {α : Type} {read : Json → Option α} {write : α → Json}
    (h : ∀ item, read (write item) = some item) (items : List α) :
    list? read (.arr (items.map write)) = some items :=
  mapM_map_eq_some fun item _ => h item

theorem isPlain_arr_map {α : Type} {write : α → Json} (h : ∀ item, (write item).isPlain = true)
    (items : List α) : (arr (items.map write)).isPlain = true := by
  rw [isPlain, arePlain_iff, List.forall_mem_map]
  intro item _
  exact h item

theorem isPlain_strOrNull (text : Option String) : (strOrNull text).isPlain = true := by
  cases text <;> rfl

theorem isPlain_obj_cons {name : String} {value : Json} {rest : List (String × Json)} :
    (obj ((name, value) :: rest)).isPlain = true ↔
      value.isPlain = true ∧ (obj rest).isPlain = true := by
  rw [isPlain, havePlain, Bool.and_eq_true, isPlain]

theorem uint32?_nat (n : UInt32) : (nat n.toNat).uint32? = some n := by
  have hle : n.toNat ≤ 0xffffffff := Nat.le_of_lt_succ n.toNat_lt
  rw [uint32?, nat, natUpTo?, if_pos hle, Option.map_some, UInt32.ofNat_toNat]

theorem uint64?_nat (n : UInt64) : (nat n.toNat).uint64? = some n := by
  have hle : n.toNat ≤ 0xffffffffffffffff := Nat.le_of_lt_succ n.toNat_lt
  rw [uint64?, nat, natUpTo?, if_pos hle, Option.map_some, UInt64.ofNat_toNat]

/-! ## Values and their texts -/

theorem text_inj {α : Type} {read : Json → Option α} {render : α → String}
    (h : ∀ value, (parse? (render value)).bind read = some value) {a b : α} :
    render a = render b ↔ a = b := by
  constructor
  · intro htext
    apply Option.some.inj
    rw [← h a, htext, h b]
  · intro heq
    rw [heq]

/-- Values are written as plain JSON, and they are read back from it. -/
structure Exchanges {α : Type} (read : Json → Option α) (write : α → Json) : Prop where
  isPlain : ∀ value, (write value).isPlain = true
  read_write : ∀ value, read (write value) = some value

namespace Exchanges

variable {α : Type} {read : Json → Option α} {write : α → Json}

/-- Lists are exchanged as their items are. -/
theorem list (h : Exchanges read write) :
    Exchanges (list? read) fun items => arr (items.map write) where
  isPlain := isPlain_arr_map h.isPlain
  read_write := list?_arr_map h.read_write

/-- **A value is read back from every text** that is a way to write its JSON. -/
theorem of_written (h : Exchanges read write) {value : α} {cs : List Char}
    (hcs : Written (.value (write value)) cs) :
    (parse? (String.ofList cs)).bind read = some value := by
  rw [parse?_of_written hcs, Option.bind_some, h.read_write]

theorem parse?_compact (h : Exchanges read write) (value : α) :
    (parse? (write value).compact).bind read = some value :=
  h.of_written (written_compactChars (h.isPlain value))

theorem parse?_pretty (h : Exchanges read write) (value : α) :
    (parse? (write value).pretty).bind read = some value :=
  h.of_written (written_prettyChars (h.isPlain value) 0)

/-- **Different values have different texts** without blanks. -/
theorem compact_inj (h : Exchanges read write) {a b : α} :
    (write a).compact = (write b).compact ↔ a = b :=
  text_inj h.parse?_compact

/-- **Different values have different texts** over lines. -/
theorem pretty_inj (h : Exchanges read write) {a b : α} :
    (write a).pretty = (write b).pretty ↔ a = b :=
  text_inj h.parse?_pretty

end Exchanges

end Json

theorem Architecture.ofJson?_toJson (architecture : Architecture) :
    ofJson? architecture.toJson = some architecture := by
  cases architecture with
  | other machine =>
    have hle : machine.toNat ≤ 0xffff := Nat.le_of_lt_succ machine.toNat_lt
    simp [ofJson?, toJson, Json.alternative?, Json.uint16?, Json.nat, Json.natUpTo?, hle]
  | _ => rfl

theorem Architecture.isPlain_toJson (architecture : Architecture) :
    architecture.toJson.isPlain = true := by
  cases architecture <;> rfl

end KernelCatalog
