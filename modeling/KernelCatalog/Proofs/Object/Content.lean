import KernelCatalog.Object.Basic
import Mathlib.Algebra.Group.Nat.Defs

/-!
# What an object holds

Look-ups in an object, stated by what is there: `Object.First` is the first symbol with a property,
and `Object.Covers` relates a symbol to the bytes of its section that it covers. Sums of addresses
are taken as natural numbers, so no statement depends on where a word would wrap.
-/

namespace KernelCatalog

namespace Bytes

theorem littleValue_lt (bytes : Bytes) : littleValue bytes < 256 ^ bytes.length := by
  induction bytes with
  | nil => simp [littleValue]
  | cons b rest ih =>
    have hb := b.toNat_lt
    rw [littleValue, List.length_cons, Nat.pow_succ]
    omega

theorem slice?_eq_some_iff_append {bytes out : Bytes} {start size : Nat} :
    slice? bytes start size = some out ↔
      ∃ before after, bytes = before ++ out ++ after ∧ before.length = start ∧ out.length = size := by
  constructor
  · intro h
    have hlength := length_of_slice? h
    obtain ⟨hle, rfl⟩ := slice?_eq_some.mp h
    refine ⟨bytes.take start, (bytes.drop start).drop size, ?_, ?_, hlength⟩
    · rw [List.append_assoc, List.take_append_drop, List.take_append_drop]
    · rw [List.length_take]
      omega
  · rintro ⟨before, after, rfl, rfl, rfl⟩
    rw [slice?_eq_some]
    constructor
    · simp only [List.length_append]
      omega
    · rw [List.append_assoc, List.drop_left, List.take_left]

end Bytes

theorem ByteOrder.value_lt_of_length (order : ByteOrder) {bytes : Bytes} (h : bytes.length = 4) :
    order.value bytes < 2 ^ 32 := by
  cases order with
  | little =>
    have hlt := Bytes.littleValue_lt bytes
    rwa [h] at hlt
  | big =>
    have hlt := Bytes.littleValue_lt bytes.reverse
    rwa [List.length_reverse, h] at hlt

namespace Object

/-- `symbol` is the first of the object's symbols with a property. -/
def First (object : Object) (property : Symbol → Prop) (symbol : Symbol) : Prop :=
  property symbol ∧ ∃ before after, object.symbols = before ++ symbol :: after ∧
    ∀ s ∈ before, ¬ property s

/-- A search by a test finds the first symbol that passes it. -/
theorem find?_eq_some_iff_first {object : Object} {test : Symbol → Bool} {property : Symbol → Prop}
    (htest : ∀ s, test s = true ↔ property s) {symbol : Symbol} :
    object.symbols.find? test = some symbol ↔ object.First property symbol := by
  rw [List.find?_eq_some_iff_append, First, htest]
  simp only [Bool.not_eq_true', Bool.eq_false_iff, ne_eq, htest]

theorem First.mem {object : Object} {property : Symbol → Prop} {symbol : Symbol}
    (h : object.First property symbol) : symbol ∈ object.symbols := by
  obtain ⟨-, before, after, hsymbols, -⟩ := h
  rw [hsymbols]
  simp

theorem exists_first {object : Object} (property : Symbol → Prop) {symbol : Symbol}
    (hmem : symbol ∈ object.symbols) (h : property symbol) :
    ∃ first, object.First property first := by
  classical
  have hsome : (object.symbols.find? fun s => decide (property s)).isSome :=
    List.find?_isSome.mpr ⟨symbol, hmem, by simpa using h⟩
  obtain ⟨first, hfirst⟩ := Option.isSome_iff_exists.mp hsome
  exact ⟨first, (find?_eq_some_iff_first (by simp)).mp hfirst⟩

/-- The symbol of a name is the first that is called so. -/
theorem symbolNamed?_eq_some_iff {object : Object} {name : String} {symbol : Symbol} :
    object.symbolNamed? name = some symbol ↔ object.First (·.name = name) symbol :=
  find?_eq_some_iff_first fun _ => beq_iff_eq

/-- The address that the offsets in a section count from. -/
def origin (object : Object) (s : Section) : Nat :=
  if object.relocatable then 0 else s.address.toNat

/-- `bytes` are the bytes of its section that `symbol` covers. -/
def Covers (object : Object) (symbol : Symbol) (bytes : Bytes) : Prop :=
  ∃ index s before after, symbol.sectionIndex = some index ∧ object.sections[index]? = some s ∧
    s.data = before ++ bytes ++ after ∧ bytes.length = symbol.size.toNat ∧
    symbol.address.toNat = object.origin s + before.length

/-- A symbol starts behind as many bytes as its address lies behind the origin. -/
theorem symbolStart?_eq_some_iff {object : Object} {s : Section} {symbol : Symbol} {start : Nat} :
    object.symbolStart? s symbol = some start ↔
      symbol.address.toNat = object.origin s + start := by
  unfold symbolStart? origin
  split
  · simp
  · split
    · next h =>
      rw [UInt64.le_iff_toNat_le] at h
      rw [Option.some.injEq]
      omega
    · next h =>
      rw [UInt64.le_iff_toNat_le] at h
      constructor
      · intro hnone
        exact absurd hnone (by simp)
      · intro heq
        omega

/-- The bytes of a symbol are those that it covers. -/
theorem symbolBytes?_eq_some_iff {object : Object} {symbol : Symbol} {bytes : Bytes} :
    object.symbolBytes? symbol = some bytes ↔ object.Covers symbol bytes := by
  unfold symbolBytes?
  constructor
  · intro h
    split at h
    · exact absurd h (by simp)
    · next index hindex =>
      split at h
      · exact absurd h (by simp)
      · next s hs =>
        split at h
        · exact absurd h (by simp)
        · next start hstart =>
          obtain ⟨before, after, hdata, rfl, hlength⟩ := Bytes.slice?_eq_some_iff_append.mp h
          exact ⟨index, s, before, after, hindex, hs, hdata, hlength,
            symbolStart?_eq_some_iff.mp hstart⟩
  · rintro ⟨index, s, before, after, hindex, hs, hdata, hlength, haddress⟩
    simp only [hindex, hs, symbolStart?_eq_some_iff.mpr haddress]
    exact Bytes.slice?_eq_some_iff_append.mpr ⟨before, after, hdata, rfl, hlength⟩

end Object

end KernelCatalog
