import KernelCatalog.Text.Split
import Mathlib.Data.List.Infix

/-!
# Filling in marks

A table says which value takes the place of which mark. `Text.fill` fills a text in with a table in
one pass: where a mark stands its value is put, everything else is copied, and no value is looked at
again. Filling in one mark after the other looks at the values that were put before, so it can find
marks that the text does not have. It comes to the same if the text that one pass gives holds no
mark that is filled in later.

* `fill_mark`, `fill_copy`: what one pass does at each place.
* `replace_eq_fill`: replacing one text is filling in one mark.
* `fill_fill`: the first mark of a table filled in before the others.
* `foldl_fill`: one mark filled in after the other.
-/

namespace KernelCatalog.Text

/-- What is left of a text to fill in, when so many characters of a mark are still to be passed
over. -/
def fillFrom (table : List (List Char × List Char)) : (passed : Nat) → List Char → List Char
  | _, [] => []
  | passed + 1, _ :: rest => fillFrom table passed rest
  | 0, c :: rest =>
    match table.find? fun entry => entry.1.isPrefixOf (c :: rest) with
    | some (mark, value) => value ++ fillFrom table (mark.length - 1) rest
    | none => c :: fillFrom table 0 rest

/-- A text with the marks of a table filled in, in one pass from left to right. -/
def fill (table : List (List Char × List Char)) (text : List Char) : List Char :=
  fillFrom table 0 text

/-- Marks that cannot overlap: each starts with a sign that it does not hold again, and none is at
the front of another one. -/
structure Separate (sign : Char) (table : List (List Char × List Char)) : Prop where
  starts : ∀ entry ∈ table, ∃ name, entry.1 = sign :: name ∧ sign ∉ name
  apart : ∀ entry ∈ table, ∀ other ∈ table, entry.1 <+: other.1 → entry = other

namespace Separate

variable {sign : Char} {table : List (List Char × List Char)} {entry : List Char × List Char}

theorem mono (h : Separate sign table) {fewer : List (List Char × List Char)}
    (hsubset : fewer ⊆ table) : Separate sign fewer where
  starts entry hmem := h.starts entry (hsubset hmem)
  apart entry hmem other hother := h.apart entry (hsubset hmem) other (hsubset hother)

/-- Only one mark can stand at a place. -/
theorem eq_of_prefix (h : Separate sign table) {other : List Char × List Char}
    (hmem : entry ∈ table) (hother : other ∈ table) {text : List Char} (hfront : entry.1 <+: text)
    (hfront' : other.1 <+: text) : entry = other := by
  rcases List.prefix_or_prefix_of_prefix hfront hfront' with hprefix | hprefix
  · exact h.apart entry hmem other hother hprefix
  · exact (h.apart other hother entry hmem hprefix).symm

end Separate

section Fill

variable {sign : Char} {table : List (List Char × List Char)} {entry : List Char × List Char}

/-! ## One pass -/

/-- Characters that are passed over are dropped. -/
theorem fillFrom_eq_fill_drop (passed : Nat) (text : List Char) :
    fillFrom table passed text = fill table (text.drop passed) := by
  induction text generalizing passed with
  | nil => simp [fillFrom, fill]
  | cons c rest ih =>
    cases passed with
    | zero => rfl
    | succ passed => rw [fillFrom, ih, List.drop_succ_cons]

@[simp]
theorem fill_nil : fill table [] = [] := by
  rw [fill, fillFrom]

/-- **Where a mark stands**, its value is put. -/
theorem fill_mark (h : Separate sign table) (hmem : entry ∈ table) (rest : List Char) :
    fill table (entry.1 ++ rest) = entry.2 ++ fill table rest := by
  obtain ⟨name, hname, -⟩ := h.starts entry hmem
  have hfront : entry.1 <+: sign :: (name ++ rest) := by
    rw [hname]
    exact List.prefix_append (sign :: name) rest
  have hfound : table.find? (fun other => other.1.isPrefixOf (sign :: (name ++ rest))) =
      some entry := by
    cases hfind : table.find? fun other => other.1.isPrefixOf (sign :: (name ++ rest)) with
    | none =>
      rw [List.find?_eq_none] at hfind
      exact absurd (List.isPrefixOf_iff_prefix.mpr hfront) (hfind entry hmem)
    | some other =>
      have hother : other.1 <+: sign :: (name ++ rest) := by simpa using List.find?_some hfind
      rw [h.eq_of_prefix hmem (List.mem_of_find?_eq_some hfind) hfront hother]
  obtain ⟨mark, value⟩ := entry
  dsimp only at hname
  rw [hname, List.cons_append, fill, fillFrom, hfound]
  dsimp only
  rw [hname, fillFrom_eq_fill_drop, List.length_cons, Nat.add_sub_cancel, List.drop_left]

/-- **Where no mark stands**, the character is copied. -/
theorem fill_copy {c : Char} {rest : List Char}
    (hfree : ∀ entry ∈ table, ¬ entry.1 <+: c :: rest) :
    fill table (c :: rest) = c :: fill table rest := by
  have hnone : table.find? (fun entry => entry.1.isPrefixOf (c :: rest)) = none := by
    rw [List.find?_eq_none]
    exact fun entry hmem hfront => hfree entry hmem (List.isPrefixOf_iff_prefix.mp hfront)
  rw [fill, fillFrom, hnone, fill]

/-- How one pass goes through a text: a mark or a character that no mark stands at, and the rest. -/
theorem pass_induction (h : Separate sign table) {motive : List Char → Prop} (nil : motive [])
    (mark : ∀ entry ∈ table, ∀ rest, motive rest → motive (entry.1 ++ rest))
    (copy : ∀ c rest, (∀ entry ∈ table, ¬ entry.1 <+: c :: rest) → motive rest →
      motive (c :: rest)) (text : List Char) : motive text := by
  by_cases hmark : ∃ entry ∈ table, entry.1 <+: text
  · obtain ⟨entry, hmem, rest, rfl⟩ := hmark
    exact mark entry hmem rest (pass_induction h nil mark copy rest)
  · cases text with
    | nil => exact nil
    | cons c rest =>
      refine copy c rest ?_ (pass_induction h nil mark copy rest)
      exact fun entry hmem hfront => hmark ⟨entry, hmem, hfront⟩
termination_by text.length
decreasing_by
  · obtain ⟨name, hname, -⟩ := h.starts entry hmem
    subst_vars
    rw [hname, List.length_append, List.length_cons]
    omega
  · simp

theorem fill_of_empty (text : List Char) : fill [] text = text := by
  induction text with
  | nil => exact fill_nil
  | cons c rest ih => rw [fill_copy (by simp), ih]

theorem fill_append (h : Separate sign table) {front : List Char} (hfront : sign ∉ front)
    (rest : List Char) : fill table (front ++ rest) = front ++ fill table rest := by
  induction front with
  | nil => rfl
  | cons c front ih =>
    obtain ⟨hc, hfront⟩ := not_or.mp (mt List.mem_cons.mpr hfront)
    rw [List.cons_append, fill_copy, ih hfront, List.cons_append]
    intro entry hmem hentry
    obtain ⟨name, hname, -⟩ := h.starts entry hmem
    rw [hname, List.cons_prefix_cons] at hentry
    exact hc hentry.1

/-- Characters other than the sign of the marks that a text starts with are still there when it is
filled in. -/
theorem prefix_fill (h : Separate sign table) {front text : List Char} (hfront : sign ∉ front)
    (hbefore : front <+: text) : front <+: fill table text := by
  obtain ⟨rest, rfl⟩ := hbefore
  rw [fill_append h hfront]
  exact List.prefix_append _ _

/-! ## One mark after the other -/

/-- A mark that stands at the front of a character and what follows it stands there also when what
follows, from some place on, is filled in. -/
theorem prefix_cons_fill (h : Separate sign table) (hmem : entry ∈ table) {c : Char}
    (front text : List Char) (hbefore : entry.1 <+: c :: (front ++ text)) :
    entry.1 <+: c :: (front ++ fill table text) := by
  obtain ⟨name, hname, hsign⟩ := h.starts entry hmem
  rw [hname, List.cons_prefix_cons] at hbefore ⊢
  refine ⟨hbefore.1, ?_⟩
  -- what the mark covers of the text holds no sign, so it is copied
  rcases List.prefix_or_prefix_of_prefix hbefore.2 (List.prefix_append front text) with
    hshort | ⟨more, rfl⟩
  · exact List.prefix_append_of_prefix hshort
  · rw [List.prefix_append_right_inj] at hbefore ⊢
    exact prefix_fill h (fun hin => hsign (List.mem_append_right front hin)) hbefore.2

/-- A value is copied if no mark stands in it once the text behind it is filled in. -/
theorem fill_value (h : Separate sign table) {value text : List Char}
    (hclean : ∀ entry ∈ table, ¬ entry.1 <:+: value ++ fill table text) :
    fill table (value ++ text) = value ++ fill table text := by
  induction value with
  | nil => rfl
  | cons c value ih =>
    rw [List.cons_append, fill_copy, ih, List.cons_append]
    · exact fun entry hmem hin => hclean entry hmem (List.infix_cons hin)
    · intro entry hmem hfront
      exact hclean entry hmem (prefix_cons_fill h hmem value text hfront).isInfix

/-- **The first mark of a table can be filled in before the others** if the text that one pass gives
holds none of these. -/
theorem fill_fill (h : Separate sign (entry :: table)) {text : List Char}
    (hclean : ∀ later ∈ table, ¬ later.1 <:+: fill (entry :: table) text) :
    fill table (fill [entry] text) = fill (entry :: table) text := by
  have hfirst : Separate sign [entry] := h.mono (by simp)
  have hothers : Separate sign table := h.mono (List.subset_cons_self entry table)
  induction text using pass_induction h with
  | nil => rw [fill_nil, fill_nil, fill_nil]
  | mark other hmem rest ih =>
    rw [fill_mark h hmem] at hclean ⊢
    have ih := ih fun later hlater hin => hclean later hlater (List.infix_append_of_infix_right hin)
    by_cases heq : other = entry
    · subst heq
      rw [fill_mark hfirst List.mem_cons_self, ← ih]
      rw [← ih] at hclean
      exact fill_value hothers hclean
    · have hlater := List.mem_of_ne_of_mem heq hmem
      have hkept : fill [entry] (other.1 ++ rest) = other.1 ++ fill [entry] rest := by
        -- the first mark stands neither at the front of another one nor behind its sign
        obtain ⟨name, hname, hsign⟩ := h.starts other hmem
        rw [hname, List.cons_append, fill_copy, fill_append hfirst hsign, List.cons_append]
        intro found hfound hfront
        obtain rfl := List.mem_singleton.mp hfound
        rw [← List.cons_append, ← hname] at hfront
        exact heq (h.eq_of_prefix hmem List.mem_cons_self (List.prefix_append _ _) hfront)
      rw [hkept, fill_mark hothers hlater, ih]
  | copy c rest hfree ih =>
    have hcopied := fill_copy hfree
    rw [hcopied] at hclean ⊢
    have ih := ih fun later hlater hin => hclean later hlater (List.infix_cons hin)
    have hnot : ∀ other ∈ [entry], ¬ other.1 <+: c :: rest := fun other hother =>
      hfree other (List.mem_singleton.mp hother ▸ List.mem_cons_self)
    rw [fill_copy hnot, fill_copy, ih]
    intro later hlater hfront
    have hthere := prefix_cons_fill hothers hlater [] (fill [entry] rest) hfront
    rw [List.nil_append, ih] at hthere
    exact hclean later hlater hthere.isInfix

/-- **One mark is filled in after the other** as in one pass, if the text that one pass gives holds
none but the first. -/
theorem foldl_fill (h : Separate sign table) {text : List Char}
    (hclean : ∀ later ∈ table.tail, ¬ later.1 <:+: fill table text) :
    table.foldl (fun text entry => fill [entry] text) text = fill table text := by
  induction table generalizing text with
  | nil => exact (fill_of_empty text).symm
  | cons entry table ih =>
    have hfirst : fill table (fill [entry] text) = fill (entry :: table) text :=
      fill_fill h hclean
    rw [List.foldl_cons, ih (h.mono (List.subset_cons_self entry table)), hfirst]
    rw [hfirst]
    exact fun later hlater => hclean later (List.mem_of_mem_tail hlater)

end Fill

/-! ## Replacing -/

/-- Replacing, as far as the fuel goes, is filling in one mark. -/
theorem replaceChars_eq_fill {old : List Char} (hne : old ≠ []) (new : List Char) {fuel : Nat}
    {text : List Char} (hfuel : text.length ≤ fuel) :
    replaceChars old new fuel text = fill [(old, new)] text := by
  induction fuel generalizing text with
  | zero => rw [List.eq_nil_of_length_eq_zero (Nat.le_zero.mp hfuel), replaceChars, fill_nil]
  | succ fuel ih =>
    cases text with
    | nil => rw [replaceChars, fill_nil]
    | cons c rest =>
      rw [List.length_cons] at hfuel
      rw [replaceChars, if_neg (by simpa using hne), fill, fillFrom, List.find?_singleton]
      split
      · -- the mark is not empty, so its first character and the others are dropped
        obtain ⟨count, hcount⟩ := Nat.exists_eq_add_one.mpr (List.length_pos_iff.mpr hne)
        dsimp only
        rw [fillFrom_eq_fill_drop, hcount, Nat.add_sub_cancel, List.drop_succ_cons, ih]
        rw [List.length_drop]
        omega
      · dsimp only
        rw [ih (by omega), fill]

/-- **Replacing one text by another** is filling in one mark. -/
theorem replace_eq_fill (text : String) {old : String} (hne : old.toList ≠ []) (new : String) :
    (replace text old new).toList = fill [(old.toList, new.toList)] text.toList := by
  rw [replace, String.toList_ofList, replaceChars_eq_fill hne]
  rw [String.length_toList]

end KernelCatalog.Text
