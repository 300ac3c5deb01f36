import KernelCatalog.HostSource.Identifier
import KernelCatalog.Proofs.Text.Decimal
import Mathlib.Data.List.Nodup
import Mathlib.Data.List.Perm.Subperm

/-!
# Identifiers are legal, distinct and stable

A name that is taken is numbered. The candidates for one base differ, so a list of taken names cannot
hold more of them than it is long, and the search for a free one ends at the first that is free.
Names are given out from the front, so what follows does not change them, and a legal name that is
free is its own identifier.

* `free_eq_candidate`: the search ends at the first candidate that is free.
* `nodup_assign`: the identifiers of a source differ from each other and from its own constants.
* `legal_of_mem_assignFrom`: they are legal identifiers.
* `assignFrom_append`: names behind do not change the identifiers of those in front.
* `assignFrom_eq_self`: identifiers are kept as names.
-/

namespace KernelCatalog.Identifier

/-! ## Distinct identifiers -/

theorem numbered_form_injective {base : String} {m n : Nat}
    (h : base ++ "_" ++ toString m = base ++ "_" ++ toString n) : m = n := by
  have hlist := congrArg String.toList h
  simp only [String.toList_append, List.append_cancel_left_eq] at hlist
  exact Text.toString_injective (String.toList_injective hlist)

/-- The names that are tried for a base, one after the other: the base itself, then its numbered
forms from `_2` on. -/
def candidate (base : String) : Nat → String
  | 0 => base
  | tried + 1 => base ++ "_" ++ toString (tried + 2)

theorem candidate_injective (base : String) : Function.Injective (candidate base) := by
  have hlonger : ∀ n : Nat, base ++ "_" ++ toString n ≠ base := by
    intro n h
    have hlength := congrArg String.length h
    have hunderscore : "_".length = 1 := rfl
    simp only [String.length_append, hunderscore] at hlength
    omega
  intro m n h
  cases m with
  | zero =>
    cases n with
    | zero => rfl
    | succ n => exact absurd h.symm (hlonger _)
  | succ m =>
    cases n with
    | zero => exact absurd h (hlonger _)
    | succ n =>
      have hsame := numbered_form_injective h
      omega

/-- So many names are tried for a base in vain: they are taken, and the next one is not. -/
structure FirstFree (taken : List String) (base : String) (tried : Nat) : Prop where
  taken_of_lt : ∀ i < tried, candidate base i ∈ taken
  not_mem : candidate base tried ∉ taken

/-- The order in which names were taken does not matter. -/
theorem FirstFree.of_mem_iff {taken taken' : List String} {base : String} {tried : Nat}
    (h : FirstFree taken base tried) (hmem : ∀ name, name ∈ taken' ↔ name ∈ taken) :
    FirstFree taken' base tried where
  taken_of_lt i hi := (hmem _).mpr (h.taken_of_lt i hi)
  not_mem := mt (hmem _).mp h.not_mem

/-- No more names can be tried in vain than are taken. -/
theorem le_length_of_candidate_mem {taken : List String} {base : String} {tried : Nat}
    (h : ∀ i < tried, candidate base i ∈ taken) : tried ≤ taken.length := by
  have hnodup : ((List.range tried).map (candidate base)).Nodup :=
    List.nodup_range.map (candidate_injective base)
  have hsubset : (List.range tried).map (candidate base) ⊆ taken := by
    intro form hform
    obtain ⟨i, hi, rfl⟩ := List.mem_map.mp hform
    exact h i (List.mem_range.mp hi)
  have hlength := (List.subperm_of_subset hnodup hsubset).length_le
  rwa [List.length_map, List.length_range] at hlength

/-- The search for a numbered form ends at the first one that is not taken, or when the fuel is
used up. -/
theorem numbered_eq_candidate (taken : List String) (base : String) (fuel n : Nat) :
    ∃ more ≤ fuel, numbered taken base fuel (n + 2) = candidate base (n + 1 + more) ∧
      (∀ i < more, candidate base (n + 1 + i) ∈ taken) ∧
      (more < fuel → candidate base (n + 1 + more) ∉ taken) := by
  induction fuel generalizing n with
  | zero => exact ⟨0, Nat.le_refl 0, rfl, by simp, by simp⟩
  | succ fuel ih =>
    rw [numbered]
    split
    · next htaken =>
      obtain ⟨more, hle, heq, hmem, hfree⟩ := ih (n + 1)
      have hnext : ∀ i, n + 1 + 1 + i = n + 1 + (i + 1) := by omega
      simp only [hnext] at heq hmem hfree
      refine ⟨more + 1, by omega, heq, fun i hi => ?_, fun hlt => hfree (by omega)⟩
      cases i with
      | zero => exact List.contains_iff_mem.mp htaken
      | succ i => exact hmem i (by omega)
    · next hfree =>
      exact ⟨0, by omega, rfl, by simp, fun _ hmem => hfree (List.contains_iff_mem.mpr hmem)⟩

/-- **The search for a free name** ends after at most as many vain tries as names are taken, at the
first name that is free. -/
theorem free_eq_candidate (taken : List String) (base : String) :
    ∃ tried ≤ taken.length, free taken base = candidate base tried ∧
      FirstFree taken base tried := by
  unfold free
  split
  · next htaken =>
    obtain ⟨more, -, heq, hmem, hfree⟩ := numbered_eq_candidate taken base taken.length 0
    have hall : ∀ i < more + 1, candidate base i ∈ taken := by
      intro i hi
      cases i with
      | zero => exact List.contains_iff_mem.mp htaken
      | succ i =>
        have hi' := hmem i (by omega)
        rwa [Nat.zero_add, Nat.add_comm] at hi'
    -- the fuel is not used up, as the base itself was tried in vain too
    have hle := le_length_of_candidate_mem hall
    rw [Nat.zero_add, Nat.add_comm 1 more] at heq hfree
    exact ⟨more + 1, hle, heq, hall, hfree (by omega)⟩
  · next hfree =>
    exact ⟨0, Nat.zero_le _, rfl, by simp, fun hmem => hfree (List.contains_iff_mem.mpr hmem)⟩

/-- **A free identifier is not taken.** -/
theorem free_not_mem (taken : List String) (base : String) : free taken base ∉ taken := by
  obtain ⟨_, -, heq, hfirst⟩ := free_eq_candidate taken base
  exact heq ▸ hfirst.not_mem

/-- Identifiers that are given out one after another differ from each other and from those that are
taken. -/
theorem nodup_assignFrom (taken names : List String) :
    (assignFrom taken names).Nodup ∧ ∀ ident ∈ assignFrom taken names, ident ∉ taken := by
  induction names generalizing taken with
  | nil => exact ⟨List.nodup_nil, by simp [assignFrom]⟩
  | cons name rest ih =>
    obtain ⟨hnodup, hnew⟩ := ih (free taken (sanitize name) :: taken)
    rw [assignFrom]
    refine ⟨List.nodup_cons.mpr ⟨fun hmem => hnew _ hmem List.mem_cons_self, hnodup⟩, ?_⟩
    intro ident hident
    rcases List.mem_cons.mp hident with rfl | hident
    · exact free_not_mem taken _
    · exact fun htaken => hnew ident hident (List.mem_cons_of_mem _ htaken)

/-- **The identifiers of a source** differ from each other and from the constants that it declares
itself. -/
theorem nodup_assign (names : List String) :
    (sideConstant :: (assign names ++ [tableConstant])).Nodup := by
  obtain ⟨hnodup, hnew⟩ := nodup_assignFrom [sideConstant, tableConstant] names
  have hside : sideConstant ∉ assign names := fun hmem => hnew _ hmem List.mem_cons_self
  have htable : tableConstant ∉ assign names := fun hmem => hnew _ hmem (by simp)
  rw [List.nodup_cons, (List.perm_append_singleton _ _).nodup_iff, List.nodup_cons]
  refine ⟨fun hmem => ?_, htable, hnodup⟩
  rcases List.mem_append.mp hmem with hmem | hmem
  · exact hside hmem
  · exact absurd (List.mem_singleton.mp hmem) (by decide)

theorem length_assignFrom (taken names : List String) :
    (assignFrom taken names).length = names.length := by
  induction names generalizing taken with
  | nil => rfl
  | cons name rest ih => rw [assignFrom, List.length_cons, ih, List.length_cons]

/-! ## Legal identifiers -/

/-- A text of word characters that does not start with a digit. -/
structure Wordlike (ident : String) : Prop where
  word : ∀ c ∈ ident.toList, isWord c = true
  lead : ∃ c, ident.toList.head? = some c ∧ c.isDigit = false

/-- A legal identifier. -/
structure Legal (ident : String) : Prop extends Wordlike ident where
  not_keyword : ident ∉ keywords

/-- Whether an identifier is legal can be decided. -/
instance (ident : String) : Decidable (Legal ident) :=
  decidable_of_iff (ident.toList.all isWord = true ∧
      (ident.toList.head?.any fun c => !c.isDigit) = true ∧ ident ∉ keywords)
    ⟨fun ⟨hword, hlead, hkeyword⟩ =>
      ⟨⟨List.all_eq_true.mp hword, by simpa [Option.any_eq_true] using hlead⟩, hkeyword⟩,
      fun h => ⟨List.all_eq_true.mpr h.word, by simpa [Option.any_eq_true] using h.lead,
        h.not_keyword⟩⟩

theorem legal_sideConstant : Legal sideConstant := by decide +kernel

theorem legal_tableConstant : Legal tableConstant := by decide +kernel

theorem Wordlike.append {ident ending : String} (h : Wordlike ident)
    (hending : ∀ c ∈ ending.toList, isWord c = true) : Wordlike (ident ++ ending) := by
  obtain ⟨c, hhead, hdigit⟩ := h.lead
  refine ⟨?_, c, ?_, hdigit⟩
  · rw [String.toList_append, List.forall_mem_append]
    exact ⟨h.word, hending⟩
  · rw [String.toList_append, List.head?_append, hhead, Option.some_or]

theorem isWord_of_mem_underscore : ∀ c ∈ "_".toList, isWord c = true :=
  List.all_eq_true.mp (by decide)

/-- Every character of a name is replaced by one that may stand in an identifier. -/
theorem isWord_of_mem_wordChars {cs : List Char} {c : Char} (h : c ∈ wordChars cs) :
    isWord c = true := by
  obtain ⟨d, -, rfl⟩ := List.mem_map.mp h
  split
  · assumption
  · decide

/-- The characters that `leadChars` gives are word characters, the first of which is no digit. -/
theorem wordlike_leadChars {cs : List Char} (h : ∀ c ∈ cs, isWord c = true) :
    Wordlike (String.ofList (leadChars cs)) := by
  have hunderscore : isWord '_' = true := by decide
  cases cs with
  | nil => exact ⟨by simp [leadChars, hunderscore], '_', by simp [leadChars], by decide⟩
  | cons first rest =>
    rw [leadChars]
    split
    · refine ⟨?_, '_', by simp, by decide⟩
      rw [String.toList_ofList, List.forall_mem_cons]
      exact ⟨hunderscore, h⟩
    · next hdigit =>
      refine ⟨?_, first, by simp, by simpa using hdigit⟩
      rwa [String.toList_ofList]

theorem legal_sanitize (name : String) : Legal (sanitize name) := by
  have hwordlike := wordlike_leadChars fun c (hc : c ∈ wordChars name.toList) =>
    isWord_of_mem_wordChars hc
  unfold sanitize
  dsimp only
  split
  · next hkeyword =>
    have hnone : ∀ keyword ∈ keywords, keyword ++ "_" ∉ keywords := by decide +kernel
    exact ⟨hwordlike.append isWord_of_mem_underscore,
      hnone _ (List.contains_iff_mem.mp hkeyword)⟩
  · next hkeyword => exact ⟨hwordlike, fun hmem => hkeyword (List.contains_iff_mem.mpr hmem)⟩

/-- A numbered form of a legal identifier is legal: no keyword ends in a digit. -/
theorem Legal.numbered_form {base : String} (h : Legal base) (n : Nat) :
    Legal (base ++ "_" ++ toString n) := by
  have hdigits : ∀ c ∈ (toString n).toList, c.isDigit = true :=
    fun c hc => Text.isDigit_of_mem_toString hc
  refine ⟨(h.append isWord_of_mem_underscore).append fun c hc => ?_, fun hkeyword => ?_⟩
  · simp [isWord, Char.isAlphanum, hdigits c hc]
  · have hlast : ∀ keyword ∈ keywords, keyword.toList.getLast?.map Char.isDigit = some false := by
      decide +kernel
    have hne := Text.toList_toString_ne_nil n
    have hdigit := hlast _ hkeyword
    rw [String.toList_append, List.getLast?_append, List.getLast?_eq_some_getLast hne,
      Option.some_or, Option.map_some, hdigits _ (List.getLast_mem hne)] at hdigit
    exact absurd hdigit (by decide)

theorem Legal.free {base : String} (h : Legal base) (taken : List String) :
    Legal (free taken base) := by
  obtain ⟨tried, -, heq, -⟩ := free_eq_candidate taken base
  rw [heq]
  cases tried with
  | zero => exact h
  | succ tried => exact h.numbered_form (tried + 2)

/-- **The identifiers of a source are legal.** -/
theorem legal_of_mem_assignFrom {taken names : List String} {ident : String}
    (h : ident ∈ assignFrom taken names) : Legal ident := by
  induction names generalizing taken with
  | nil => exact absurd h (by simp [assignFrom])
  | cons name rest ih =>
    rcases List.mem_cons.mp h with rfl | h
    · exact (legal_sanitize name).free taken
    · exact ih h

/-! ## Stable identifiers -/

/-- Identifiers are given to the names in front without a look at those behind. -/
theorem assignFrom_append (taken names more : List String) :
    assignFrom taken (names ++ more) =
      assignFrom taken names ++ assignFrom ((assignFrom taken names).reverse ++ taken) more := by
  induction names generalizing taken with
  | nil => rfl
  | cons name rest ih =>
    rw [List.cons_append, assignFrom, ih, assignFrom, List.reverse_cons, List.append_assoc,
      List.singleton_append, List.cons_append]

/-- The identifier of a name is a free form, where the identifiers in front of it are taken too. -/
theorem getElem?_assignFrom {taken names : List String} {i : Nat} {name : String}
    (h : names[i]? = some name) :
    (assignFrom taken names)[i]? =
      some (free (((assignFrom taken names).take i).reverse ++ taken) (sanitize name)) := by
  obtain ⟨hi, hname⟩ := List.getElem?_eq_some_iff.mp h
  have hsplit : names = names.take i ++ name :: names.drop (i + 1) := by
    rw [← hname, List.getElem_cons_drop, List.take_append_drop]
  have hlength : (assignFrom taken (names.take i)).length = i := by
    rw [length_assignFrom, List.length_take_of_le (Nat.le_of_lt hi)]
  rw [hsplit, assignFrom_append, assignFrom, List.getElem?_append_right (by omega), hlength,
    Nat.sub_self, List.getElem?_cons_zero, List.take_left' hlength]

theorem sanitize_eq_self {ident : String} (h : Legal ident) : sanitize ident = ident := by
  obtain ⟨first, hfirst, hdigit⟩ := h.lead
  have hword : wordChars ident.toList = ident.toList := by
    rw [wordChars, List.map_congr_left fun c hc => if_pos (h.word c hc), List.map_id']
  have hlead : leadChars ident.toList = ident.toList := by
    cases hchars : ident.toList with
    | nil => simp [hchars] at hfirst
    | cons c rest =>
      rw [hchars, List.head?_cons, Option.some.injEq] at hfirst
      rw [leadChars, hfirst, hdigit, if_neg (by simp)]
  rw [sanitize, hword, hlead, String.ofList_toList,
    if_neg fun hkeyword => h.not_keyword (List.contains_iff_mem.mp hkeyword)]

theorem assignFrom_eq_self {taken idents : List String} (hlegal : ∀ ident ∈ idents, Legal ident)
    (hnodup : idents.Nodup) (hfree : ∀ ident ∈ idents, ident ∉ taken) :
    assignFrom taken idents = idents := by
  induction idents generalizing taken with
  | nil => rfl
  | cons ident rest ih =>
    obtain ⟨hident, hrest⟩ := List.forall_mem_cons.mp hlegal
    obtain ⟨hnew, hnodup⟩ := List.nodup_cons.mp hnodup
    obtain ⟨hfirst, hothers⟩ := List.forall_mem_cons.mp hfree
    have hkept : free taken (sanitize ident) = ident := by
      rw [sanitize_eq_self hident, free,
        if_neg fun htaken => hfirst (List.contains_iff_mem.mp htaken)]
    rw [assignFrom, hkept, ih hrest hnodup]
    intro other hother hmem
    rcases List.mem_cons.mp hmem with rfl | hmem
    · exact hnew hother
    · exact hothers other hother hmem

/-- **Identifiers are legal, distinct and stable.** Each name gets the first of its candidates that
is neither a constant of the source nor the identifier of a name in front of it, after at most three
more tries than there are names in front. What follows a list of names does not change their
identifiers, and identifiers are kept as names. -/
theorem assign_legal_distinct_stable (names : List String) :
    (assign names).length = names.length ∧
    (assign names).Nodup ∧
    (∀ ident ∈ assign names, Legal ident ∧ ident ≠ sideConstant ∧ ident ≠ tableConstant) ∧
    (∀ i name, names[i]? = some name → ∃ tried, tried + 1 ≤ i + 3 ∧
      (assign names)[i]? = some (candidate (sanitize name) tried) ∧
      FirstFree (sideConstant :: tableConstant :: (assign names).take i) (sanitize name) tried) ∧
    (∀ more, assign names <+: assign (names ++ more)) ∧
    assign (assign names) = assign names := by
  obtain ⟨hnodup, hfree⟩ := nodup_assignFrom [sideConstant, tableConstant] names
  refine ⟨length_assignFrom _ _, hnodup, fun ident hident => ?_, fun i name hname => ?_,
    fun more => ?_, ?_⟩
  · have hnew := hfree ident hident
    exact ⟨legal_of_mem_assignFrom hident, fun h => hnew (by simp [h]), fun h => hnew (by simp [h])⟩
  · obtain ⟨tried, hle, heq, hfirst⟩ :=
      free_eq_candidate (((assign names).take i).reverse ++ [sideConstant, tableConstant])
        (sanitize name)
    have htaken : (((assign names).take i).reverse ++ [sideConstant, tableConstant]).length ≤
        i + 2 := by
      rw [List.length_append, List.length_reverse]
      exact Nat.add_le_add_right (List.length_take_le _ _) 2
    have hmem : ∀ ident, ident ∈ sideConstant :: tableConstant :: (assign names).take i ↔
        ident ∈ ((assign names).take i).reverse ++ [sideConstant, tableConstant] := by
      intro ident
      simp only [List.mem_append, List.mem_reverse, List.mem_cons, List.not_mem_nil, or_false]
      tauto
    exact ⟨tried, by omega, heq ▸ getElem?_assignFrom hname, hfirst.of_mem_iff hmem⟩
  · exact ⟨_, (assignFrom_append _ _ _).symm⟩
  · exact assignFrom_eq_self (fun _ => legal_of_mem_assignFrom) hnodup hfree

/-- A number can be taken by the name that it would make. -/
example : assign ["a", "a_2", "a", "loop", "3d", "KERNELS"] =
    ["a", "a_2", "a_3", "loop_", "_3d", "KERNELS_2"] := by decide +kernel

end KernelCatalog.Identifier
