import KernelCatalog.Yaml.Token

/-!
# YAML documents

The nodes that the tokens of a document describe. A node may be given a name, and an alias refers to
it by the number of that name. A text holds exactly one document.
-/

namespace KernelCatalog.Yaml

/-- A node of a document. -/
inductive Node where
  /-- The node whose name has the given number. -/
  | alias (number : Nat)
  | scalar (tag : Option Bytes) (plain : Bool) (text : List Char)
  | sequence (tag : Option Bytes) (items : List Node)
  | mapping (tag : Option Bytes) (members : List (Node × Node))

/-- A node that is not written. -/
def Node.absent : Node := .scalar none true []

mutual

/-- How many marks and scalars write a node: two marks for each collection. -/
def Node.weight : Node → Nat
  | .alias _ | .scalar .. => 1
  | .sequence _ items => Node.weightItems items + 2
  | .mapping _ members => Node.weightMembers members + 2

/-- The weights of items together. -/
def Node.weightItems : List Node → Nat
  | [] => 0
  | item :: rest => item.weight + Node.weightItems rest

/-- The weights of keys and values together. -/
def Node.weightMembers : List (Node × Node) → Nat
  | [] => 0
  | (key, value) :: rest => key.weight + value.weight + Node.weightMembers rest

end

/-- What is known while the nodes of a document are read. -/
structure Known where
  /-- What the handles of tags stand for. -/
  handles : List (List Char × Bytes)
  /-- The names of nodes, each once, with their numbers. -/
  names : List (List Char × Nat) := []
  /-- The nodes of the numbers, the one that started last in front. -/
  nodes : List (Nat × Node) := []

namespace Known

/-- Notes the name of a node that starts here. Its number is the count of the names so far, whether
the name is among them or not. -/
def start (known : Known) (name : List Char) : Known :=
  let number := known.names.length
  { known with
    names := (name, number) :: known.names.filter (fun entry => entry.1 != name)
    nodes := (number, .absent) :: known.nodes }

/-- Notes the node that started when `before` nodes were known, if it has a name. -/
def finish (known : Known) (before : Nat) (name : Option (List Char)) (node : Node) : Known :=
  match name with
  | some _ =>
    { known with
      nodes := known.nodes.modify (known.nodes.length - 1 - before) fun entry => (entry.1, node) }
  | none => known

end Known

/-- What stands in front of a node: its tag and its name. -/
structure Properties where
  tag : Option TagForm := none
  anchor : Option (List Char) := none

/-- The properties in front of a node, in either order. -/
def readProperties : List Token → Properties × List Token
  | .anchor name :: .tag form :: rest => (⟨some form, some name⟩, rest)
  | .tag form :: .anchor name :: rest => (⟨some form, some name⟩, rest)
  | .anchor name :: rest => ({ anchor := some name }, rest)
  | .tag form :: rest => ({ tag := some form }, rest)
  | tokens => ({}, tokens)

/-- The tag that properties mean, if its handle is known. -/
def Properties.tag? (properties : Properties) (known : Known) : Option (Option Bytes) :=
  match properties.tag with
  | some form => (form.resolve? known.handles).map some
  | none => some none

/-- Where a node stands. -/
inductive Setting where
  /-- In a flow collection: no block collection may start. -/
  | flow
  /-- An item of a block sequence, or the document. -/
  | item
  /-- A part of a block mapping: the dashes of a sequence may stand in its own column. -/
  | member
  deriving DecidableEq, Repr

/-- Whether nothing is written between an indicator and this token. -/
def isAbsent : (tokens : List Token) → (ends : List Token) → Bool
  | [], _ => true
  | token :: _, ends => ends.contains token

mutual

/-- A node, with what is known behind it. -/
def readNode? : (fuel : Nat) → Setting → Known → List Token →
    Option (Node × Known × List Token)
  | 0, _, _, _ => none
  | fuel + 1, setting, known, tokens =>
    match tokens with
    | .alias name :: rest =>
      (known.names.lookup name).map fun number => (.alias number, known, rest)
    | _ =>
      let (properties, left) := readProperties tokens
      match properties.tag? known with
      | none => none
      | some tag =>
        let before := known.nodes.length
        let named (node : Node) (known : Known) (rest : List Token) :=
          some (node, known.finish before properties.anchor node, rest)
        let known := (properties.anchor.map known.start).getD known
        let empty :=
          if properties.tag.isSome || properties.anchor.isSome then
            named (.scalar tag true []) known left
          else none
        match left with
        | .entry :: _ =>
          if setting = .member then
            match readLooseItems? fuel known left with
            | none => none
            | some (items, known, rest) => named (.sequence tag items) known rest
          else empty
        | .scalar plain text :: rest => named (.scalar tag plain text) known rest
        | .flowSequenceStart :: rest =>
          match readFlowItems? fuel true known rest with
          | none => none
          | some (items, known, rest) => named (.sequence tag items) known rest
        | .flowMappingStart :: rest =>
          match readFlowMembers? fuel true known rest with
          | none => none
          | some (members, known, rest) => named (.mapping tag members) known rest
        | token :: rest =>
          if token = .sequenceStart && setting != .flow then
            match readItems? fuel known rest with
            | none => none
            | some (items, known, rest) => named (.sequence tag items) known rest
          else if token = .mappingStart && setting != .flow then
            match readMembers? fuel known rest with
            | none => none
            | some (members, known, rest) => named (.mapping tag members) known rest
          else empty
        | [] => empty

/-- A node, or an absent one in front of one of the given tokens. -/
def readOptional? : (fuel : Nat) → Setting → (ends : List Token) → Known → List Token →
    Option (Node × Known × List Token)
  | 0, _, _, _, _ => none
  | fuel + 1, setting, ends, known, tokens =>
    if isAbsent tokens ends then some (.absent, known, tokens)
    else readNode? fuel setting known tokens

/-- The items of a block sequence, up to its end. -/
def readItems? : (fuel : Nat) → Known → List Token → Option (List Node × Known × List Token)
  | 0, _, _ => none
  | fuel + 1, known, tokens =>
    match tokens with
    | .blockEnd :: rest => some ([], known, rest)
    | .entry :: rest =>
      match readOptional? fuel .item [.entry, .blockEnd] known rest with
      | none => none
      | some (item, known, rest) =>
        (readItems? fuel known rest).map fun (items, left) => (item :: items, left)
    | _ => none

/-- The items of a sequence whose dashes stand in the column of the mapping around it. -/
def readLooseItems? : (fuel : Nat) → Known → List Token →
    Option (List Node × Known × List Token)
  | 0, _, _ => none
  | fuel + 1, known, tokens =>
    match tokens with
    | .entry :: rest =>
      match readOptional? fuel .item [.entry, .key, .value, .blockEnd] known rest with
      | none => none
      | some (item, known, rest) =>
        (readLooseItems? fuel known rest).map fun (items, left) => (item :: items, left)
    | _ => some ([], known, tokens)

/-- The members of a block mapping, up to its end. -/
def readMembers? : (fuel : Nat) → Known → List Token →
    Option (List (Node × Node) × Known × List Token)
  | 0, _, _ => none
  | fuel + 1, known, tokens =>
    match tokens with
    | .blockEnd :: rest => some ([], known, rest)
    | .key :: rest =>
      match readOptional? fuel .member [.key, .value, .blockEnd] known rest with
      | none => none
      | some (key, known, rest) =>
        match readValue? fuel .member [.key, .value, .blockEnd] known rest with
        | none => none
        | some (value, known, rest) =>
          (readMembers? fuel known rest).map fun (members, left) =>
            ((key, value) :: members, left)
    | _ => none

/-- The value of a member: the node behind its colon, or an absent one. -/
def readValue? : (fuel : Nat) → Setting → (ends : List Token) → Known → List Token →
    Option (Node × Known × List Token)
  | 0, _, _, _, _ => none
  | fuel + 1, setting, ends, known, tokens =>
    match tokens with
    | .value :: rest => readOptional? fuel setting ends known rest
    | _ => some (.absent, known, tokens)

/-- The items of a flow sequence, up to its closing bracket. -/
def readFlowItems? : (fuel : Nat) → (first : Bool) → Known → List Token →
    Option (List Node × Known × List Token)
  | 0, _, _, _ => none
  | fuel + 1, first, known, tokens =>
    match tokens, first with
    | .flowSequenceEnd :: rest, _ => some ([], known, rest)
    | .flowEntry :: rest, false => readFlowItem? fuel known rest
    | _, false => none
    | _, true => readFlowItem? fuel known tokens

/-- One item of a flow sequence, which may be a single member of a mapping, and those behind it. -/
def readFlowItem? : (fuel : Nat) → Known → List Token →
    Option (List Node × Known × List Token)
  | 0, _, _ => none
  | fuel + 1, known, tokens =>
    match tokens with
    | .flowSequenceEnd :: rest => some ([], known, rest)
    | .key :: rest =>
      match readFlowKey? fuel known rest with
      | none => none
      | some (key, known, rest) =>
        match readValue? fuel .flow [.flowEntry, .flowSequenceEnd] known rest with
        | none => none
        | some (value, known, rest) =>
          (readFlowItems? fuel false known rest).map fun (items, left) =>
            (.mapping none [(key, value)] :: items, left)
    | _ =>
      match readNode? fuel .flow known tokens with
      | none => none
      | some (item, known, rest) =>
        (readFlowItems? fuel false known rest).map fun (items, left) => (item :: items, left)

/-- The key of a single member in a flow sequence. One that is absent takes the token behind it
along. -/
def readFlowKey? : (fuel : Nat) → Known → List Token → Option (Node × Known × List Token)
  | 0, _, _ => none
  | fuel + 1, known, tokens =>
    if isAbsent tokens [.value, .flowEntry, .flowSequenceEnd] then
      some (.absent, known, tokens.drop 1)
    else readNode? fuel .flow known tokens

/-- The members of a flow mapping, up to its closing brace. -/
def readFlowMembers? : (fuel : Nat) → (first : Bool) → Known → List Token →
    Option (List (Node × Node) × Known × List Token)
  | 0, _, _, _ => none
  | fuel + 1, first, known, tokens =>
    match tokens, first with
    | .flowMappingEnd :: rest, _ => some ([], known, rest)
    | .flowEntry :: rest, false => readFlowMember? fuel known rest
    | _, false => none
    | _, true => readFlowMember? fuel known tokens

/-- One member of a flow mapping, whose value may be absent, and those behind it. -/
def readFlowMember? : (fuel : Nat) → Known → List Token →
    Option (List (Node × Node) × Known × List Token)
  | 0, _, _ => none
  | fuel + 1, known, tokens =>
    match tokens with
    | .flowMappingEnd :: rest => some ([], known, rest)
    | .key :: rest =>
      match readOptional? fuel .flow [.value, .flowEntry, .flowMappingEnd] known rest with
      | none => none
      | some (key, known, rest) =>
        match readValue? fuel .flow [.flowEntry, .flowMappingEnd] known rest with
        | none => none
        | some (value, known, rest) =>
          (readFlowMembers? fuel false known rest).map fun (members, left) =>
            ((key, value) :: members, left)
    | _ =>
      match readNode? fuel .flow known tokens with
      | none => none
      | some (key, known, rest) =>
        (readFlowMembers? fuel false known rest).map fun (members, left) =>
          ((key, .absent) :: members, left)

end

/-- Whether a token belongs to a mark between documents. -/
def isDocumentMark : Token → Bool
  | .documentStart | .documentEnd | .directive _ => true
  | _ => false

/-- The directives in front of a document, and the tokens behind them. -/
def readDirectives : List Token → List Directive × List Token
  | .directive d :: rest =>
    let (directives, left) := readDirectives rest
    (d :: directives, left)
  | tokens => ([], tokens)

/-- A document: its node, and the nodes that its aliases refer to by number. -/
structure Document where
  root : Node
  nodes : List (Nat × Node)

/-- The only document that tokens describe. One with directives starts with its mark. -/
def Document.ofTokens? (tokens : List Token) : Option Document := do
  let (directives, body) := readDirectives tokens
  let known : Known := { handles := ← handles? directives }
  let explicit := body.head? == some .documentStart
  if body.isEmpty || (!directives.isEmpty && !explicit) then none
  else
    let content := if explicit then body.drop 1 else body
    let (root, known, rest) ←
      if explicit && (content.head?.map isDocumentMark).getD true then
        some (Node.absent, known, content)
      else readNode? (8 * tokens.length + 8) .item known content
    if rest.all (· == .documentEnd) then some ⟨root, known.nodes⟩ else none

end KernelCatalog.Yaml
