import KernelCatalog.Proofs.Object.Reader

/-!
# Where the bytes of a symbol lie

A symbol tells an offset in its section and a size. `LiesIn` takes both as integers, so it holds
exactly when the bytes are there, whatever the numbers of the symbol and of its section are.

A machine computes in words and takes slices by indices that are below `limit`. A sum that wraps, a
word that is no index and a slice that is not there all come to nothing, and on a machine that holds
the contents of every section they are the offsets that lie outside.

* `symbolBytes?_eq_some_iff_liesIn`: the bytes of a symbol are those that lie where it says.
* `accessBytes?_eq`: words that wrap make no difference.
-/

namespace KernelCatalog

namespace Bytes

/-- The bytes from `first` up to `last`, if they are all there. -/
def range? (bytes : Bytes) (first last : Nat) : Option Bytes :=
  if first ≤ last ∧ last ≤ bytes.length then some ((bytes.drop first).take (last - first))
  else none

/-- A range is the slice that starts and ends with it. -/
theorem range?_add (bytes : Bytes) (start size : Nat) :
    range? bytes start (start + size) = bytes.slice? start size := by
  rw [range?, slice?, Nat.add_sub_cancel_left]
  simp only [Nat.le_add_right, true_and]

end Bytes

namespace Object

/-! ## Symbols and their sections -/

/-- Where a symbol starts in a section; below zero when it lies in front of it. -/
def offsetIn (object : Object) (s : Section) (symbol : Symbol) : Int :=
  if object.relocatable then symbol.address.toNat else symbol.address.toNat - s.address.toNat

/-- `s` is the symbol's section and holds all bytes that the symbol covers. -/
structure LiesIn (object : Object) (symbol : Symbol) (s : Section) : Prop where
  isSection : ∃ index, symbol.sectionIndex = some index ∧ object.sections[index]? = some s
  nonneg : 0 ≤ object.offsetIn s symbol
  stop_le : object.offsetIn s symbol + symbol.size.toNat ≤ s.data.length

/-- A symbol that starts in a section starts at its offset. -/
theorem symbolStart?_eq_some_iff_offsetIn {object : Object} {s : Section} {symbol : Symbol}
    {start : Nat} : object.symbolStart? s symbol = some start ↔ object.offsetIn s symbol = start := by
  rw [symbolStart?_eq_some_iff]
  unfold origin offsetIn
  split <;> omega

/-- The bytes of a symbol are a slice of its section. -/
theorem symbolBytes?_eq_bind (object : Object) (symbol : Symbol) :
    object.symbolBytes? symbol =
      symbol.sectionIndex.bind fun index => object.sections[index]?.bind fun s =>
        (object.symbolStart? s symbol).bind fun start => s.data.slice? start symbol.size.toNat := by
  unfold symbolBytes?
  cases symbol.sectionIndex with
  | none => rfl
  | some index =>
    dsimp only [Option.bind_some]
    cases object.sections[index]? with
    | none => rfl
    | some s =>
      dsimp only [Option.bind_some]
      cases object.symbolStart? s symbol with
      | none => rfl
      | some start => rfl

/-- **Exactness**: a symbol has bytes when all of them lie in its section, and has no others. -/
theorem symbolBytes?_eq_some_iff_liesIn {object : Object} {symbol : Symbol} {bytes : Bytes} :
    object.symbolBytes? symbol = some bytes ↔ ∃ s, object.LiesIn symbol s ∧
      bytes = (s.data.drop (object.offsetIn s symbol).toNat).take symbol.size.toNat := by
  simp only [symbolBytes?_eq_bind, Option.bind_eq_some_iff,
    symbolStart?_eq_some_iff_offsetIn, Bytes.slice?_eq_some]
  constructor
  · rintro ⟨index, hindex, s, hs, start, hstart, hstop, rfl⟩
    refine ⟨s, ⟨⟨index, hindex, hs⟩, by omega, by omega⟩, ?_⟩
    rw [hstart, Int.toNat_natCast]
  · rintro ⟨s, ⟨⟨index, hindex, hs⟩, hnonneg, hstop⟩, rfl⟩
    exact ⟨index, hindex, s, hs, (object.offsetIn s symbol).toNat,
      (Int.toNat_of_nonneg hnonneg).symm, by omega, rfl⟩

theorem length_of_symbolBytes? {object : Object} {symbol : Symbol} {bytes : Bytes}
    (h : object.symbolBytes? symbol = some bytes) : bytes.length = symbol.size.toNat := by
  obtain ⟨_, _, _, _, -, -, -, hlength, -⟩ := symbolBytes?_eq_some_iff.mp h
  exact hlength

/-! ## In words -/

/-- The difference of two words, if it is one. -/
def checkedSub? (a b : UInt64) : Option UInt64 := if a < b then none else some (a - b)

/-- The index that a word is on a machine whose indices are below `limit`, if it is one. -/
def index? (limit : Nat) (w : UInt64) : Option Nat := if w.toNat < limit then some w.toNat else none

/-- Where a symbol starts in its section, as a word. -/
def wordStart? (object : Object) (s : Section) (symbol : Symbol) : Option UInt64 :=
  if object.relocatable then some symbol.address else checkedSub? symbol.address s.address

/-- The bytes from a word on, if their end is a word, the two are indices and the bytes are there. -/
def accessSlice? (limit : Nat) (bytes : Bytes) (start size : UInt64) : Option Bytes := do
  let stop ← checkedAdd? start size
  let first ← index? limit start
  let last ← index? limit stop
  bytes.range? first last

/-- The bytes of a symbol, as a machine finds them. -/
def accessBytes? (limit : Nat) (object : Object) (symbol : Symbol) : Option Bytes := do
  let index ← symbol.sectionIndex
  let s ← object.sections[index]?
  let start ← object.wordStart? s symbol
  accessSlice? limit s.data start symbol.size

/-- A machine with indices below `limit`, all of which are words, holds the object: it has an index for
the length of every section. -/
structure Fits (object : Object) (limit : Nat) : Prop where
  limit_le : limit ≤ UInt64.size
  length_lt : ∀ s ∈ object.sections, s.data.length < limit

theorem checkedSub?_eq_some_iff {a b c : UInt64} :
    checkedSub? a b = some c ↔ a.toNat = b.toNat + c.toNat := by
  unfold checkedSub?
  have ha := a.toNat_lt
  split
  · next hlt =>
    rw [UInt64.lt_iff_toNat_lt] at hlt
    simp only [reduceCtorEq, false_iff]
    omega
  · next hge =>
    rw [UInt64.not_lt] at hge
    have hsub := UInt64.toNat_sub_of_le _ _ hge
    rw [UInt64.le_iff_toNat_le] at hge
    rw [Option.some.injEq, ← UInt64.toNat_inj]
    omega

theorem map_toNat_wordStart? (object : Object) (s : Section) (symbol : Symbol) :
    (object.wordStart? s symbol).map UInt64.toNat = object.symbolStart? s symbol := by
  apply Option.ext
  intro start
  rw [symbolStart?_eq_some_iff, Option.map_eq_some_iff]
  unfold wordStart? origin
  split
  · simp
  · simp only [checkedSub?_eq_some_iff]
    constructor
    · rintro ⟨w, hw, rfl⟩
      exact hw
    · intro hstart
      have hlt := symbol.address.toNat_lt
      have hword : (UInt64.ofNat start).toNat = start :=
        UInt64.toNat_ofNat_of_lt' (Nat.lt_of_le_of_lt (by omega) hlt)
      exact ⟨UInt64.ofNat start, by omega, hword⟩

/-- In words a slice is found in the same way: a sum that is no word, or no index, lies behind the
end of the bytes. -/
theorem accessSlice?_eq {limit : Nat} {bytes : Bytes} (hlimit : limit ≤ UInt64.size)
    (hlength : bytes.length < limit) (start size : UInt64) :
    accessSlice? limit bytes start size = bytes.slice? start.toNat size.toNat := by
  unfold accessSlice?
  by_cases hin : start.toNat + size.toNat ≤ bytes.length
  · have hsum : (UInt64.ofNat (start.toNat + size.toNat)).toNat = start.toNat + size.toNat :=
      UInt64.toNat_ofNat_of_lt' (Nat.lt_of_lt_of_le (by omega) hlimit)
    have hfirst : index? limit start = some start.toNat := if_pos (by omega)
    have hlast : index? limit (UInt64.ofNat (start.toNat + size.toNat)) =
        some (start.toNat + size.toNat) := by
      rw [index?, hsum, if_pos (by omega)]
    rw [checkedAdd?_eq_some_iff.mpr hsum, Option.bind_eq_bind, Option.bind_some, hfirst, hlast]
    exact bytes.range?_add _ _
  · rw [Bytes.slice?, if_neg hin]
    cases hstop : checkedAdd? start size with
    | none => rfl
    | some stop =>
      have hsum := checkedAdd?_eq_some_iff.mp hstop
      have hout : ∀ first, bytes.range? first stop.toNat = none := fun first =>
        if_neg (by omega)
      unfold index?
      dsimp only [Option.bind_eq_bind, Option.bind_some]
      split <;> split <;> simp [hout]

/-- **Words that wrap make no difference**: a machine finds the bytes that lie where a symbol says. -/
theorem accessBytes?_eq {limit : Nat} {object : Object} (hfits : object.Fits limit)
    (symbol : Symbol) : object.accessBytes? limit symbol = object.symbolBytes? symbol := by
  rw [symbolBytes?_eq_bind, accessBytes?]
  cases symbol.sectionIndex with
  | none => rfl
  | some index =>
    dsimp only [Option.bind_eq_bind, Option.bind_some]
    cases hs : object.sections[index]? with
    | none => rfl
    | some s =>
      have hlength := hfits.length_lt s (List.mem_of_getElem? hs)
      dsimp only [Option.bind_some]
      rw [← map_toNat_wordStart?]
      cases object.wordStart? s symbol with
      | none => rfl
      | some start => exact accessSlice?_eq hfits.limit_le hlength start symbol.size

end Object

end KernelCatalog
