import KernelCatalog.HostSource.Render
import KernelCatalog.Proofs.HostSource.Identifier
import KernelCatalog.Proofs.Text.Literal

/-!
# Reading expressions of generated source

A reader takes what it reads from the front of a text and leaves the rest. There is a reader for
each expression that stands in a generated source: literals, identifiers, numbers, parameters,
launch resources and descriptors.

* `descriptor_append`: the expression of an overload is read back, less the address.
-/

namespace KernelCatalog

/-- What generated source tells of an overload: all but its address. -/
structure OverloadDescriptor where
  symbol : String
  params : List Param
  launch : Launch
  deriving DecidableEq, Repr

/-- The descriptor of an overload. -/
def Overload.descriptor (overload : Overload) : OverloadDescriptor :=
  ⟨overload.symbol, overload.params, overload.launch⟩

namespace HostSource

/-- Reads a value from the front of a text, if there is one. -/
abbrev Reader := StateT (List Char) Option

namespace Reader

variable {α β : Type}

theorem bind_eq {first : Reader α} {next : α → Reader β} {cs rest : List Char} {a : α}
    (h : first cs = some (a, rest)) : (first >>= next) cs = next a rest := by
  simp [bind, StateT.bind, h]

theorem bind_eq_none {first : Reader α} {next : α → Reader β} {cs : List Char}
    (h : first cs = none) : (first >>= next) cs = none := by
  simp [bind, StateT.bind, h]

theorem orElse_eq {first second : Reader α} {cs : List Char} {answer : α × List Char}
    (h : first cs = some answer) : (first <|> second) cs = some answer := by
  change (first cs <|> second cs) = some answer
  rw [h]
  rfl

/-- The second of two readers is used if the first fails. -/
theorem orElse_eq_second {first second : Reader α} {cs : List Char} (h : first cs = none) :
    (first <|> second) cs = second cs := by
  change (first cs <|> second cs) = second cs
  rw [h]
  rfl

/-! ## Words -/

/-- Reads the given text. -/
def expect (text : String) : Reader Unit := fun cs =>
  (Text.after? text.toList cs).map fun rest => ((), rest)

/-- Takes a value that is there or fails. -/
def given (value : Option α) : Reader α := fun cs => value.map fun a => (a, cs)

/-- Reads characters of a kind as far as they go. -/
def span (kind : Char → Bool) : Reader String := fun cs =>
  some (String.ofList (cs.takeWhile kind), cs.dropWhile kind)

/-- Reads all that is left. -/
def rest : Reader String := fun cs => some (String.ofList cs, [])

/-- Reads a legal identifier. -/
def identifier : Reader String := do
  let ident ← span Identifier.isWord
  given (if Identifier.Legal ident then some ident else none)

/-- Reads a word that stands for a value. -/
def named (table : List (String × α)) : Reader α := do
  let name ← span Identifier.isWord
  given (table.lookup name)

/-- Reads a number of thirty-two bits. -/
def number : Reader UInt32 := do
  let digits ← span Char.isDigit
  let n ← given (Text.unsigned? (UInt32.size - 1) digits)
  pure (.ofNat n)

/-- Reads a quoted text. -/
def literal : Reader String := do
  expect "\""
  fun cs => (Text.unquote .plain cs).map fun (text, rest) => (String.ofList text, rest)

/-- No character of the kind stands in front. -/
def Stops (kind : Char → Bool) (cs : List Char) : Prop := ∀ c ∈ cs.head?, kind c = false

theorem stops_append {kind : Char → Bool} (text : String) {c : Char}
    (hhead : text.toList.head? = some c) (hc : kind c = false) (rest : List Char) :
    Stops kind (text.toList ++ rest) := by
  intro d hd
  rw [List.head?_append, hhead] at hd
  obtain rfl := Option.some.inj hd
  exact hc

theorem expect_append (text : String) (rest : List Char) :
    expect text (text.toList ++ rest) = some ((), rest) := by
  rw [expect, Text.after?_eq_some.mpr rfl]
  rfl

theorem given_some (a : α) (cs : List Char) : given (some a) cs = some (a, cs) := rfl

theorem rest_toList (text : String) : rest text.toList = some (text, []) := by
  rw [rest, String.ofList_toList]

theorem span_append {kind : Char → Bool} {text : String} (h : ∀ c ∈ text.toList, kind c = true)
    {rest : List Char} (hrest : Stops kind rest) :
    span kind (text.toList ++ rest) = some (text, rest) := by
  have htake : (text.toList ++ rest).takeWhile kind = text.toList := by
    rw [List.takeWhile_append_of_pos h]
    cases rest with
    | nil => simp
    | cons c more => rw [List.takeWhile_cons_of_neg (by simp [hrest c rfl]), List.append_nil]
  have hdrop : (text.toList ++ rest).dropWhile kind = rest := by
    rw [List.dropWhile_append_of_pos h]
    cases rest with
    | nil => rfl
    | cons c more => rw [List.dropWhile_cons_of_neg (by simp [hrest c rfl])]
  rw [span, htake, hdrop, String.ofList_toList]

theorem identifier_append {ident : String} (h : Identifier.Legal ident) {rest : List Char}
    (hrest : Stops Identifier.isWord rest) :
    identifier (ident.toList ++ rest) = some (ident, rest) := by
  rw [identifier, bind_eq (span_append h.word hrest), if_pos h]
  rfl

/-- A word is read as the value that it stands for. -/
theorem named_append {table : List (String × α)} {name : String} {a : α}
    (h : table.lookup name = some a) (hword : ∀ c ∈ name.toList, Identifier.isWord c = true)
    {rest : List Char} (hrest : Stops Identifier.isWord rest) :
    named table (name.toList ++ rest) = some (a, rest) := by
  rw [named, bind_eq (span_append hword hrest), h]
  rfl

theorem literal_append (text : String) (rest : List Char) :
    literal ((Text.quote text).toList ++ rest) = some (text, rest) := by
  have hquote : (Text.quote text).toList ++ rest =
      "\"".toList ++ (Text.quoteChars text.toList ++ '"' :: rest) := by
    simp [Text.quote]
  rw [literal, hquote, bind_eq (expect_append _ _), Text.unquote_quoteChars]
  simp

theorem number_append (n : UInt32) {rest : List Char} (hrest : Stops Char.isDigit rest) :
    number ((toString n.toNat).toList ++ rest) = some (n, rest) := by
  have hdigits : ∀ c ∈ (toString n.toNat).toList, c.isDigit = true :=
    fun c hc => Text.isDigit_of_mem_toString hc
  have hle : n.toNat ≤ UInt32.size - 1 := Nat.le_sub_one_of_lt n.toNat_lt
  rw [number, bind_eq (span_append hdigits hrest), Text.unsigned?_toString hle,
    bind_eq (given_some n.toNat rest), UInt32.ofNat_toNat]
  rfl

/-! ## Expressions -/

/-- Reads one expression or more, with a comma and a blank between neighbours. -/
def separated (item : Reader α) (cs : List Char) : Option (List α × List Char) :=
  match item cs with
  | none => none
  | some (a, left) =>
    match Text.after? ", ".toList left with
    | none => some ([a], left)
    | some more =>
      if more.length < cs.length then
        (separated item more).map fun (items, rest) => (a :: items, rest)
      else none
termination_by cs.length

/-- Reads the expressions of an array up to its closing bracket. -/
def array (item : Reader α) : Reader (List α) := fun cs =>
  match Text.after? "]".toList cs with
  | some rest => some ([], rest)
  | none => (do let items ← separated item; expect "]"; pure items : Reader (List α)) cs

/-- Expressions that are joined are read one after another. -/
theorem separated_append {item : Reader α} {text : α → String}
    (hitem : ∀ a rest, item ((text a).toList ++ rest) = some (a, rest)) {rest : List Char}
    (hrest : Text.after? ", ".toList rest = none) {items : List α} (hne : items ≠ []) :
    separated item ((Text.join ", " (items.map text)).toList ++ rest) = some (items, rest) := by
  induction items with
  | nil => exact absurd rfl hne
  | cons a more ih =>
    rw [separated]
    cases more with
    | nil =>
      rw [List.map_singleton, Text.join, hitem]
      simp only [hrest]
    | cons b more =>
      have hjoin : (Text.join ", " ((a :: b :: more).map text)).toList ++ rest =
          (text a).toList ++ (", ".toList ++
            ((Text.join ", " ((b :: more).map text)).toList ++ rest)) := by
        rw [List.map_cons, List.map_cons, Text.join, String.toList_append, String.toList_append]
        · simp only [List.append_assoc]
        · simp
      rw [hjoin, hitem]
      simp only [Text.after?_eq_some.mpr rfl]
      rw [if_pos (by simp only [List.length_append]; simp; omega), ih (by simp)]
      rfl

/-- The words for scalars. -/
def scalars : List (String × Scalar) := Scalar.all.map fun type => (type.variant, type)

/-- The words for address spaces. -/
def spaces : List (String × AddressSpace) :=
  [AddressSpace.global, .workgroup].map fun space => (space.variant, space)

/-- The words for truth values. -/
def truths : List (String × Bool) := [("true", true), ("false", false)]

def scalarParam : Reader Param := do
  expect "ParamType::Scalar(ScalarType::"
  let type ← named scalars
  expect ")"
  pure (.scalar type)

def pointerParam : Reader Param := do
  expect "ParamType::Pointer \x7b space: AddressSpace::"
  let space ← named spaces
  expect ", elem: ScalarType::"
  let elem ← named scalars
  expect ", mutable: "
  let mutable ← named truths
  expect " \x7d"
  pure (.pointer space elem mutable)

/-- Reads a parameter. -/
def param : Reader Param := scalarParam <|> pointerParam

/-- Reads the launch resources. -/
def launch : Reader Launch := do
  expect "LaunchAttributes \x7b group_segment_size: "
  let group ← number
  expect ", private_segment_size: "
  let scratch ← number
  expect ", kernarg_size: "
  let kernarg ← number
  expect " \x7d"
  pure ⟨group, scratch, kernarg⟩

/-- Reads a descriptor. -/
def descriptor : Reader OverloadDescriptor := do
  expect "OverloadDescriptor \x7b symbol: "
  let symbol ← literal
  expect ", params: &["
  let params ← array param
  expect ", launch: "
  let resources ← launch
  expect " \x7d"
  pure ⟨symbol, params, resources⟩

theorem named_scalar (type : Scalar) {rest : List Char} (hrest : Stops Identifier.isWord rest) :
    named scalars (type.variant.toList ++ rest) = some (type, rest) := by
  refine named_append ?_ (List.all_eq_true.mp ?_) hrest
  · cases type <;> decide
  · cases type <;> decide

theorem named_space (space : AddressSpace) {rest : List Char}
    (hrest : Stops Identifier.isWord rest) :
    named spaces (space.variant.toList ++ rest) = some (space, rest) := by
  refine named_append ?_ (List.all_eq_true.mp ?_) hrest
  · cases space <;> decide
  · cases space <;> decide

theorem named_truth (truth : Bool) {rest : List Char} (hrest : Stops Identifier.isWord rest) :
    named truths ((if truth then "true" else "false").toList ++ rest) = some (truth, rest) := by
  refine named_append ?_ (List.all_eq_true.mp ?_) hrest
  · cases truth <;> decide
  · cases truth <;> decide

theorem param_append (p : Param) (rest : List Char) :
    param (p.initializer.toList ++ rest) = some (p, rest) := by
  cases p with
  | scalar type =>
    refine orElse_eq ?_
    unfold Param.initializer
    repeat rw [String.toList_append]
    repeat rw [List.append_assoc]
    rw [scalarParam, bind_eq (expect_append _ _),
      bind_eq (named_scalar type (stops_append ")" rfl rfl _)), bind_eq (expect_append _ _)]
    rfl
  | pointer space elem mutable =>
    unfold Param.initializer
    repeat rw [String.toList_append]
    repeat rw [List.append_assoc]
    refine (orElse_eq_second (bind_eq_none rfl)).trans ?_
    rw [pointerParam, bind_eq (expect_append _ _),
      bind_eq (named_space space (stops_append ", elem: ScalarType::" rfl rfl _)),
      bind_eq (expect_append _ _),
      bind_eq (named_scalar elem (stops_append ", mutable: " rfl rfl _)),
      bind_eq (expect_append _ _), bind_eq (named_truth mutable (stops_append " \x7d" rfl rfl _)),
      bind_eq (expect_append _ _)]
    rfl

theorem launch_append (resources : Launch) (rest : List Char) :
    launch (resources.initializer.toList ++ rest) = some (resources, rest) := by
  unfold Launch.initializer
  repeat rw [String.toList_append]
  repeat rw [List.append_assoc]
  rw [launch, bind_eq (expect_append _ _),
    bind_eq (number_append _ (stops_append ", private_segment_size: " rfl rfl _)),
    bind_eq (expect_append _ _),
    bind_eq (number_append _ (stops_append ", kernarg_size: " rfl rfl _)),
    bind_eq (expect_append _ _), bind_eq (number_append _ (stops_append " \x7d" rfl rfl _)),
    bind_eq (expect_append _ _)]
  rfl

/-- A bracket does not stand in front of joined expressions that start otherwise. -/
theorem after?_join {text : α → String}
    (hlead : ∀ a, ∃ c, (text a).toList.head? = some c ∧ c ≠ ']') (a : α) (more : List α)
    (rest : List Char) :
    Text.after? "]".toList ((Text.join ", " ((a :: more).map text)).toList ++ rest) = none := by
  obtain ⟨c, hhead, hc⟩ := hlead a
  have hfirst : ∀ rest, Text.after? "]".toList ((text a).toList ++ rest) = none := by
    intro rest
    obtain ⟨others, hothers⟩ := List.head?_eq_some_iff.mp hhead
    rw [hothers]
    exact if_neg (Ne.symm hc)
  cases more with
  | nil => exact hfirst rest
  | cons b more =>
    rw [List.map_cons, List.map_cons, Text.join, String.toList_append, String.toList_append,
      List.append_assoc, List.append_assoc]
    · exact hfirst _
    · simp

/-- The expressions of an array are read up to its bracket. -/
theorem array_append {item : Reader α} {text : α → String}
    (hitem : ∀ a rest, item ((text a).toList ++ rest) = some (a, rest))
    (hlead : ∀ a, ∃ c, (text a).toList.head? = some c ∧ c ≠ ']') (items : List α)
    (rest : List Char) :
    array item ((Text.join ", " (items.map text)).toList ++ ("]".toList ++ rest)) =
      some (items, rest) := by
  unfold array
  cases items with
  | nil =>
    rw [List.map_nil, Text.join]
    rfl
  | cons a more =>
    have hclose : Text.after? ", ".toList ("]".toList ++ rest) = none := rfl
    rw [after?_join hlead]
    dsimp only
    rw [bind_eq (separated_append hitem hclose (List.cons_ne_nil a more)),
      bind_eq (expect_append _ _)]
    rfl

/-- The expression of a parameter starts with a letter. -/
theorem head?_initializer (p : Param) : p.initializer.toList.head? = some 'P' := by
  cases p with
  | scalar type =>
    unfold Param.initializer
    repeat rw [String.toList_append, List.head?_append]
    rfl
  | pointer space elem mutable =>
    unfold Param.initializer
    repeat rw [String.toList_append, List.head?_append]
    rfl

/-- **The expression of an overload is read back**, less the address. -/
theorem descriptor_append (overload : Overload) (rest : List Char) :
    descriptor (overload.initializer.toList ++ rest) = some (overload.descriptor, rest) := by
  have hparams : ∀ rest, array param
      ((Text.join ", " (overload.params.map Param.initializer)).toList ++ ("]".toList ++ rest)) =
        some (overload.params, rest) :=
    array_append param_append (fun p => ⟨'P', head?_initializer p, by decide⟩) overload.params
  have hbracket : "], launch: ".toList = "]".toList ++ ", launch: ".toList := rfl
  unfold Overload.initializer
  repeat rw [String.toList_append]
  rw [hbracket]
  repeat rw [List.append_assoc]
  rw [descriptor, bind_eq (expect_append _ _), bind_eq (literal_append _ _),
    bind_eq (expect_append _ _), bind_eq (hparams _), bind_eq (expect_append _ _),
    bind_eq (launch_append _ _), bind_eq (expect_append _ _)]
  rfl

end Reader

end HostSource

end KernelCatalog
