/-!
# Cutting and joining texts

Cutting at a separating character and replacing a piece of text by another, on lists of characters,
with the joins that undo a cut.
-/

namespace KernelCatalog.Text

/-- The pieces between the occurrences of `sep`; there is always at least one piece. -/
def pieces (sep : Char) : List Char → List (List Char)
  | [] => [[]]
  | c :: rest =>
    if c = sep then [] :: pieces sep rest
    else
      match pieces sep rest with
      | [] => [[c]]
      | piece :: more => (c :: piece) :: more

/-- The pieces with `sep` between them. -/
def unpieces (sep : Char) : List (List Char) → List Char
  | [] => []
  | [piece] => piece
  | piece :: more => piece ++ sep :: unpieces sep more

theorem pieces_ne_nil (sep : Char) (cs : List Char) : pieces sep cs ≠ [] := by
  cases cs with
  | nil => simp [pieces]
  | cons c rest =>
    simp only [pieces]
    split
    · simp
    · split <;> simp

/-- Cutting loses nothing: the pieces join to the text they were cut from. -/
theorem unpieces_pieces (sep : Char) (cs : List Char) : unpieces sep (pieces sep cs) = cs := by
  induction cs with
  | nil => rfl
  | cons c rest ih =>
    simp only [pieces]
    split
    · next h =>
      subst h
      cases hp : pieces c rest with
      | nil => exact absurd hp (pieces_ne_nil c rest)
      | cons piece more => rw [unpieces, ← hp, ih]; simp; simp
    · cases hp : pieces sep rest with
      | nil => exact absurd hp (pieces_ne_nil sep rest)
      | cons piece more =>
        rw [hp] at ih
        cases more with
        | nil => simpa [unpieces] using ih
        | cons q qs => simpa [unpieces] using ih

/-- `text` with every occurrence of `old`, found from left to right without overlap, replaced by
`new`. An empty `old` occurs nowhere. The fuel is the length of the text. -/
def replaceChars (old new : List Char) : Nat → List Char → List Char
  | 0, text => text
  | _ + 1, [] => []
  | fuel + 1, c :: rest =>
    if old.isEmpty then c :: rest
    else if old.isPrefixOf (c :: rest) then
      new ++ replaceChars old new fuel ((c :: rest).drop old.length)
    else c :: replaceChars old new fuel rest

/-- `text` with every occurrence of `old` replaced by `new`, from left to right. -/
def replace (text old new : String) : String :=
  String.ofList (replaceChars old.toList new.toList text.length text.toList)

/-- The texts with `sep` between neighbours. -/
def join (sep : String) : List String → String
  | [] => ""
  | [text] => text
  | text :: more => text ++ sep ++ join sep more

/-- What follows `start` in `cs`, when `cs` begins with it. -/
def after? : (start cs : List Char) → Option (List Char)
  | [], cs => some cs
  | _ :: _, [] => none
  | s :: start, c :: cs => if s = c then after? start cs else none

theorem after?_eq_some {start cs rest : List Char} :
    after? start cs = some rest ↔ cs = start ++ rest := by
  induction start generalizing cs with
  | nil => simp [after?, eq_comm]
  | cons s start ih =>
    cases cs with
    | nil => simp [after?]
    | cons c cs =>
      simp only [after?]
      split
      · next h => subst h; simp [ih]
      · next h => simp; intro h'; exact absurd h'.symm h

/-- What precedes `ending` in `cs`, when `cs` ends with it. -/
def before? (ending cs : List Char) : Option (List Char) :=
  (after? ending.reverse cs.reverse).map List.reverse

theorem before?_eq_some {ending cs rest : List Char} :
    before? ending cs = some rest ↔ cs = rest ++ ending := by
  simp only [before?, Option.map_eq_some_iff, after?_eq_some]
  constructor
  · rintro ⟨r, hr, rfl⟩
    have := congrArg List.reverse hr
    simpa using this
  · rintro rfl
    exact ⟨rest.reverse, by simp, by simp⟩

end KernelCatalog.Text
