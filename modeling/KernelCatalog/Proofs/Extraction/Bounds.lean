import KernelCatalog.Extraction.Descriptor
import KernelCatalog.Proofs.Object.Extent
import KernelCatalog.Proofs.Text.Utf8

/-!
# What extraction reads of an object

The extraction reads by position in two places: it takes three words of a descriptor, and it cuts a
token behind its first byte. The functions called `access…` take the same steps as the extraction does,
with the bytes that `Object.accessBytes?` finds, and give nothing where a position is out of range: when
the bytes of a word are not all there, or a text would be cut inside a character. They always give what
the extraction gives.

* `Param.accessToken?_eq`: a token is cut behind a character of one byte.
* `Descriptor.accessLaunch?_eq`: the three words of a descriptor are in range.
* `Descriptor.accessCatalog?_eq`: so is everything else that is read.
* `Descriptor.reads_within_sections`: what a symbol covers, and that nothing else is read.
-/

namespace KernelCatalog

namespace Text

/-! ## Texts and their bytes -/

/-- The first byte of a text. -/
def firstByte? (cs : List Char) : Option UInt8 := (toBytes (String.ofList cs)).head?

/-- The text behind the first `n` bytes, if they are there and end with a character. -/
def dropBytes? : Nat → List Char → Option (List Char)
  | 0, cs => some cs
  | _ + 1, [] => none
  | n + 1, c :: cs => if c.utf8Size ≤ n + 1 then dropBytes? (n + 1 - c.utf8Size) cs else none

theorem dropBytes?_one_cons {c : Char} (hc : c.utf8Size ≤ 1) (cs : List Char) :
    dropBytes? 1 (c :: cs) = some cs := by
  rw [dropBytes?, if_pos hc, Nat.sub_eq_zero_of_le c.utf8Size_pos, dropBytes?]

theorem firstByte?_cons (c : Char) (cs : List Char) :
    firstByte? (c :: cs) = (String.utf8EncodeChar c).head? := by
  rw [firstByte?, toBytes_eq_flatMap, String.toList_ofList, List.flatMap_cons, List.head?_append]
  cases hc : String.utf8EncodeChar c with
  | nil => exact absurd hc String.utf8EncodeChar_ne_nil
  | cons b bs => rfl

/-- A character of one byte is told by that byte, with which no other character starts. -/
theorem head?_utf8EncodeChar_eq_some_iff {c d : Char} (hd : d.toNat < 128) :
    (String.utf8EncodeChar c).head? = some (UInt8.ofNat d.toNat) ↔ c = d := by
  have hlast : c.val.toNat < 0x110000 := by
    rcases c.valid with hc | hc <;> omega
  have hval : c = d ↔ c.val.toNat = d.toNat := by
    rw [← Char.toNat_inj]
    rfl
  rw [hval]
  unfold String.utf8EncodeChar
  dsimp only
  split_ifs <;>
    simp (disch := omega) only [List.head?_cons, Option.some.injEq, ofNat_eq_ofNat_iff] <;> omega

end Text

namespace Param

/-! ## Tokens -/

/-- The memory of a pointer and whether it is mutable, by the first byte of its token. -/
def markOf? (b : UInt8) : Option (AddressSpace × Bool) :=
  if b = UInt8.ofNat 'p'.toNat then some (.global, true)
  else if b = UInt8.ofNat 'c'.toNat then some (.global, false)
  else if b = UInt8.ofNat 'l'.toNat then some (.workgroup, true)
  else none

/-- The parameter of a token, whose element is what follows the first byte. -/
def accessToken? (token : List Char) : Option (Option Param) :=
  match Scalar.ofName? (String.ofList token) with
  | some type => some (some (.scalar type))
  | none =>
    match (Text.firstByte? token).bind markOf? with
    | none => some none
    | some (space, mutable) =>
      (Text.dropBytes? 1 token).map fun elem =>
        (Scalar.ofName? (String.ofList elem)).map (.pointer space · mutable)

/-- Only a token that starts with one of three characters has a mark. -/
theorem firstByte?_bind_markOf? (c : Char) (cs : List Char) :
    (Text.firstByte? (c :: cs)).bind markOf? =
      if c = 'p' then some (.global, true)
      else if c = 'c' then some (.global, false)
      else if c = 'l' then some (.workgroup, true)
      else none := by
  rw [Text.firstByte?_cons]
  have hp := Text.head?_utf8EncodeChar_eq_some_iff (c := c) (d := 'p') (by decide)
  have hc := Text.head?_utf8EncodeChar_eq_some_iff (c := c) (d := 'c') (by decide)
  have hl := Text.head?_utf8EncodeChar_eq_some_iff (c := c) (d := 'l') (by decide)
  cases hhead : (String.utf8EncodeChar c).head? with
  | none => exact absurd (List.head?_eq_none_iff.mp hhead) String.utf8EncodeChar_ne_nil
  | some b =>
    rw [hhead, Option.some.injEq] at hp hc hl
    rw [Option.bind_some, markOf?]
    simp only [hp, hc, hl]

theorem accessToken?_eq (token : List Char) : accessToken? token = some (ofToken? token) := by
  unfold accessToken? ofToken?
  cases Scalar.ofName? (String.ofList token) with
  | some type => rfl
  | none =>
    cases token with
    | nil => rfl
    | cons c elem =>
      dsimp only
      rw [firstByte?_bind_markOf?]
      split_ifs with hp hc hl
      case neg => simp [hp, hc, hl]
      all_goals
        subst c
        dsimp only
        rw [Text.dropBytes?_one_cons (by decide)]
        rfl

end Param

namespace Signature

/-- The parameters of a list of tokens, each of which is cut behind its first byte. -/
def accessTokens? : List (List Char) → Option (Except SignatureError (List Param))
  | [] => some (.ok [])
  | token :: rest =>
    (Param.accessToken? token).bind fun
      | none => some (.error (.unknownToken (String.ofList token)))
      | some p =>
        (accessTokens? rest).map fun
          | .ok params => .ok (p :: params)
          | .error e => .error e

/-- The parameters of a signature. -/
def accessParams? (signature : String) : Option (Except SignatureError (List Param)) :=
  if signature = empty then some (.ok []) else accessTokens? (Text.pieces '_' signature.toList)

theorem accessTokens?_eq (tokens : List (List Char)) :
    accessTokens? tokens = some (parseTokens tokens) := by
  induction tokens with
  | nil => rfl
  | cons token rest ih =>
    rw [accessTokens?, Param.accessToken?_eq, Option.bind_some, parseTokens, ih]
    cases Param.ofToken? token with
    | none => rfl
    | some p => cases parseTokens rest <;> rfl

theorem accessParams?_eq (signature : String) :
    accessParams? signature = some (parse signature) := by
  unfold accessParams? parse
  split
  · rfl
  · exact accessTokens?_eq _

end Signature

namespace Descriptor

/-! ## Descriptors -/

/-- The word at `offset` of a descriptor, whose bytes have to be there. -/
def accessWord? (order : ByteOrder) (bytes : Bytes) (offset : Nat) : Option UInt32 :=
  (bytes.range? offset (offset + 4)).map fun raw => UInt32.ofNat (order.value raw)

/-- The launch resources that a descriptor starts with. -/
def accessLaunchOf? (order : ByteOrder) (bytes : Bytes) : Option Launch := do
  let group ← accessWord? order bytes 0
  let scratch ← accessWord? order bytes 4
  let kernarg ← accessWord? order bytes 8
  some ⟨group, scratch, kernarg⟩

variable (limit : Nat) (object : Object)

/-- The launch resources of a descriptor symbol, as a machine reads them. -/
def accessLaunch? (symbol : Symbol) (params : List Param) : Option (Except Fault Launch) :=
  if symbol.size ≠ size then some (.error (.wrongSize symbol.size))
  else
    match object.accessBytes? limit symbol with
    | none => some (.error .outside)
    | some bytes =>
      (accessLaunchOf? object.byteOrder bytes).map fun launch =>
        let needed := Param.blockSize params
        if launch.kernargSize < needed then .error (.smallBlock launch.kernargSize needed)
        else .ok launch

/-- The overload of a descriptor symbol, as a machine reads it. -/
def accessOverload? (symbol : Symbol) (base : String) : Option (Except Fault Found) :=
  if symbol.kind ≠ .object then some (.error .notData)
  else
    match Signature.split base with
    | .error e => some (.error (.signature e))
    | .ok (kernel, signature) =>
      (Signature.accessParams? signature).bind fun
        | .error e => some (.error (.signature e))
        | .ok params =>
          (accessLaunch? limit object symbol params).map fun
            | .error fault => .error fault
            | .ok launch =>
              match codeSymbol? object base with
              | none => .error (.noCode base)
              | some code => .ok ⟨kernel, code.sectionIndex, ⟨base, code.address, params, launch⟩⟩

/-- The overloads of the descriptors among the symbols, as a machine reads them. -/
def accessAll? (seen : List String) :
    List Symbol → Option (Except (String × Fault) (List Found))
  | [] => some (.ok [])
  | symbol :: rest =>
    match baseName? symbol.name with
    | none => accessAll? seen rest
    | some base =>
      if seen.contains symbol.name then some (.error (symbol.name, .duplicate))
      else
        (accessOverload? limit object symbol base).bind fun
          | .error fault => some (.error (symbol.name, fault))
          | .ok found =>
            (accessAll? (symbol.name :: seen) rest).map fun
              | .error e => .error e
              | .ok more => .ok (found :: more)

/-- The catalog of an object, as a machine reads it. -/
def accessCatalog? : Option (Except (String × Fault) Catalog) :=
  match checkVersion object with
  | .error e => some (.error e)
  | .ok () =>
    (accessAll? limit object [] object.symbols).map fun
      | .error e => .error e
      | .ok found => .ok (catalogOf object found)

theorem accessWord?_eq {order : ByteOrder} {bytes : Bytes} {offset : Nat}
    (h : offset + 4 ≤ bytes.length) :
    accessWord? order bytes offset = some (word order bytes offset) := by
  rw [accessWord?, Bytes.range?_add, Bytes.slice?, if_pos h]
  rfl

theorem accessLaunchOf?_eq {order : ByteOrder} {bytes : Bytes} (h : 12 ≤ bytes.length) :
    accessLaunchOf? order bytes = some (launchOf order bytes) := by
  rw [accessLaunchOf?, accessWord?_eq (by omega), accessWord?_eq (by omega),
    accessWord?_eq (by omega)]
  rfl

variable {limit} {object} (hfits : object.Fits limit)
include hfits

/-- **The three words of a descriptor are in range**, for every symbol: only one of sixty-four bytes
is read. -/
theorem accessLaunch?_eq (symbol : Symbol) (params : List Param) :
    accessLaunch? limit object symbol params = some (readLaunch object symbol params) := by
  unfold accessLaunch? readLaunch
  rw [Object.accessBytes?_eq hfits]
  by_cases hsize : symbol.size = size
  · rw [if_neg (not_not_intro hsize), if_neg (not_not_intro hsize)]
    cases hbytes : object.symbolBytes? symbol with
    | none => rfl
    | some bytes =>
      have hlength : bytes.length = 64 := by
        rw [Object.length_of_symbolBytes? hbytes, hsize]
        rfl
      dsimp only
      rw [accessLaunchOf?_eq (by omega)]
      rfl
  · rw [if_pos hsize, if_pos hsize]

/-- An overload is read without an index out of range. -/
theorem accessOverload?_eq (symbol : Symbol) (base : String) :
    accessOverload? limit object symbol base = some (readOverload object symbol base) := by
  unfold accessOverload? readOverload
  simp only [Signature.accessParams?_eq, accessLaunch?_eq hfits, Option.bind_some, Option.map_some]
  split
  · rfl
  · cases Signature.split base with
    | error e => rfl
    | ok parts =>
      obtain ⟨kernel, signature⟩ := parts
      dsimp only
      cases Signature.parse signature <;> rfl

theorem accessAll?_eq (seen : List String) (symbols : List Symbol) :
    accessAll? limit object seen symbols = some (collect object seen symbols) := by
  induction symbols generalizing seen with
  | nil => rfl
  | cons symbol rest ih =>
    unfold accessAll? collect
    simp only [accessOverload?_eq hfits, ih, Option.bind_some, Option.map_some]
    cases baseName? symbol.name with
    | none => rfl
    | some base =>
      dsimp only
      split
      · rfl
      · cases readOverload object symbol base <;> rfl

/-- **No index is out of range** when an object is read. -/
theorem accessCatalog?_eq : accessCatalog? limit object = some (readCatalog object) := by
  unfold accessCatalog? readCatalog
  rw [accessAll?_eq hfits]
  cases checkVersion object <;> rfl

omit hfits

/-- **What a symbol covers, and that nothing else is read.** A symbol has bytes exactly when its
section is there and holds, in integers, all that the symbol covers; they are those of the section
from where the symbol starts on, as many as it says. On a machine that holds the object, words find
the same bytes, the three words of a descriptor are in range for every symbol, and so is whatever else
is read when the catalog is made. -/
theorem reads_within_sections (object : Object) :
    (∀ symbol bytes, object.symbolBytes? symbol = some bytes ↔ ∃ s, object.LiesIn symbol s ∧
      bytes = (s.data.drop (object.offsetIn s symbol).toNat).take symbol.size.toNat) ∧
    (∀ symbol bytes, object.symbolBytes? symbol = some bytes →
      bytes.length = symbol.size.toNat) ∧
    ∀ limit, object.Fits limit →
      (∀ symbol, object.accessBytes? limit symbol = object.symbolBytes? symbol) ∧
      (∀ symbol params,
        accessLaunch? limit object symbol params = some (readLaunch object symbol params)) ∧
      accessCatalog? limit object = some (readCatalog object) := by
  refine ⟨fun symbol bytes => ?_, fun symbol bytes => ?_, fun limit hfits => ⟨?_, ?_, ?_⟩⟩
  · exact Object.symbolBytes?_eq_some_iff_liesIn
  · exact Object.length_of_symbolBytes?
  · exact Object.accessBytes?_eq hfits
  · exact accessLaunch?_eq hfits
  · exact accessCatalog?_eq hfits

/-- A descriptor whose end wraps to an offset that is in its section. -/
def wrappingSymbol : Symbol where
  name := "add__i32.kd"
  address := 0xfffffffffffffff0
  size := 64
  kind := .object
  binding := .global
  sectionIndex := some 0

/-- An object with that descriptor and a section of a hundred bytes. -/
def wrappingObject : Object where
  architecture := .amdgpu
  machineFlags := 0x4c
  byteOrder := .little
  relocatable := true
  sections := [⟨".rodata", 1, 2, 0, 0, 100, List.replicate 100 0⟩]
  symbols := [wrappingSymbol]

/-- The descriptor has no bytes, and the object is refused before any is read. -/
theorem reads_within_sections_wrapping :
    wrappingObject.accessBytes? UInt64.size wrappingSymbol = none ∧
      accessCatalog? UInt64.size wrappingObject = some (.error ("add__i32.kd", .outside)) := by
  have hfits : wrappingObject.Fits UInt64.size := ⟨Nat.le_refl _, by decide⟩
  obtain ⟨-, -, hmachine⟩ := reads_within_sections wrappingObject
  obtain ⟨hbytes, -, hcatalog⟩ := hmachine UInt64.size hfits
  constructor
  · rw [hbytes]
    decide
  · rw [hcatalog]
    decide +kernel

end Descriptor

end KernelCatalog
