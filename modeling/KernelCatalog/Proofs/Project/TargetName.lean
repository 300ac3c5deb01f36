import KernelCatalog.Project.Layout
import KernelCatalog.Proofs.HostSource.Identifier
import KernelCatalog.Proofs.Path
import Mathlib

/-!
# The directory names of targets

The directory of a target is named after it. Every character that is no letter or digit becomes an
underscore, one stands in front of a digit, those at the end are dropped, the one behind a keyword
among them, and letters are lowered. So nothing of a name that could lead elsewhere reaches a path,
and the paths of two targets are the same only where their directory names are equal.

* `Layout.isDirectoryName_directoryName`: what a directory can be called.
* `Layout.directoryName_lower`, `Layout.directoryName_append`: what makes no difference in a name.
* `Layout.same_objectPath_iff`, `Layout.same_generatedPath_iff`: when targets share a path.
* `Layout.target_paths_within`: where the files of a target are, and which targets meet.
-/

namespace KernelCatalog

namespace Text

/-! ## Lowered characters -/

theorem isDigit_eq_false_of_isAlpha {c : Char} (h : c.isAlpha = true) : c.isDigit = false := by
  rw [Bool.eq_false_iff]
  intro hdigit
  simp only [Char.isAlpha, Char.isUpper, Char.isLower, Char.isDigit, Bool.or_eq_true,
    Bool.and_eq_true, decide_eq_true_eq, ge_iff_le, UInt32.le_iff_toNat_le] at h hdigit
  -- the digits come before all letters
  have hnine : '9'.val.toNat = 57 := rfl
  have hupper : 'A'.val.toNat = 65 := rfl
  have hlower : 'a'.val.toNat = 97 := rfl
  omega

theorem ne_underscore_of_isAlpha {c : Char} (h : c.isAlpha = true) : c ≠ '_' := by
  rintro rfl
  exact absurd h (by decide)

theorem isDigit_toLower (c : Char) : c.toLower.isDigit = c.isDigit := by
  by_cases hupper : c.isUpper = true
  · have halpha : c.isAlpha = true := by simp [Char.isAlpha, hupper]
    rw [isDigit_eq_false_of_isAlpha halpha, isDigit_eq_false_of_isAlpha]
    rw [Char.isAlpha_toLower_eq_isAlpha, halpha]
  · rw [Char.toLower_eq_of_not_isUpper hupper]

theorem toLower_eq_underscore_iff {c : Char} : c.toLower = '_' ↔ c = '_' := by
  by_cases hupper : c.isUpper = true
  · have halpha : c.isAlpha = true := by simp [Char.isAlpha, hupper]
    have hlower : c.toLower.isAlpha = true := by rw [Char.isAlpha_toLower_eq_isAlpha, halpha]
    exact iff_of_false (ne_underscore_of_isAlpha hlower) (ne_underscore_of_isAlpha halpha)
  · rw [Char.toLower_eq_of_not_isUpper hupper]

end Text

namespace Identifier

theorem isWord_toLower (c : Char) : isWord c.toLower = isWord c := by
  have hunderscore : (c.toLower == '_') = (c == '_') := by
    rw [Bool.eq_iff_iff, beq_iff_eq, beq_iff_eq, Text.toLower_eq_underscore_iff]
  rw [isWord, isWord, Char.isAlphanum, Char.isAlphanum, Char.isAlpha_toLower_eq_isAlpha,
    Text.isDigit_toLower, hunderscore]

/-- Lowered characters become words as the characters do. -/
theorem wordChars_map_toLower (cs : List Char) :
    wordChars (cs.map Char.toLower) = (wordChars cs).map Char.toLower := by
  rw [wordChars, wordChars, List.map_map, List.map_map]
  apply List.map_congr_left
  intro c _
  rw [Function.comp_apply, Function.comp_apply, isWord_toLower]
  split
  · rfl
  · rfl

/-- Lowered characters are led by what leads the characters. -/
theorem leadChars_map_toLower (cs : List Char) :
    leadChars (cs.map Char.toLower) = (leadChars cs).map Char.toLower := by
  cases cs with
  | nil => rfl
  | cons c rest =>
    rw [List.map_cons, leadChars, leadChars, Text.isDigit_toLower]
    split
    · rfl
    · rfl

end Identifier

namespace Layout

open Identifier

/-! ## Underscores at the end -/

theorem trimUnderscores_eq (cs : List Char) : trimUnderscores cs = cs.rdropWhile (· = '_') := rfl

theorem trimUnderscores_append (cs : List Char) {ending : List Char} (h : ∀ c ∈ ending, c = '_') :
    trimUnderscores (cs ++ ending) = trimUnderscores cs := by
  rw [trimUnderscores, List.reverse_append, List.dropWhile_append_of_pos, trimUnderscores]
  intro c hc
  simpa using h c (List.mem_reverse.mp hc)

/-- Lowering keeps the underscores at the end. -/
theorem trimUnderscores_map_toLower (cs : List Char) :
    trimUnderscores (cs.map Char.toLower) = (trimUnderscores cs).map Char.toLower := by
  have hsame : (fun c => decide (c = '_')) ∘ Char.toLower = fun c => decide (c = '_') := by
    funext c
    simp [Text.toLower_eq_underscore_iff]
  rw [trimUnderscores, ← List.map_reverse, List.dropWhile_map, hsame, ← List.map_reverse,
    trimUnderscores]

theorem getLast?_trimUnderscores (cs : List Char) : (trimUnderscores cs).getLast? ≠ some '_' := by
  intro hlast
  have hne : cs.rdropWhile (· = '_') ≠ [] := by
    intro hnil
    rw [trimUnderscores_eq, hnil] at hlast
    exact absurd hlast (by simp)
  apply List.rdropWhile_last_not _ cs hne
  rw [trimUnderscores_eq, List.getLast?_eq_some_getLast hne] at hlast
  simpa using hlast

/-! ## The directory name of a target -/

/-- The underscore behind a keyword is dropped again, so a directory is named by the words that the
characters become. -/
theorem directoryName_eq (target : String) :
    directoryName target =
      String.ofList ((trimUnderscores (leadChars (wordChars target.toList))).map Char.toLower) := by
  have hkeyword : trimUnderscores (sanitize target).toList =
      trimUnderscores (leadChars (wordChars target.toList)) := by
    unfold sanitize
    dsimp only
    split
    · rw [String.toList_append, String.toList_ofList]
      exact trimUnderscores_append _ (by simp)
    · rw [String.toList_ofList]
  rw [directoryName, Text.lower, String.toList_ofList, hkeyword]

/-- **The case of letters makes no difference.** -/
theorem directoryName_lower (target : String) :
    directoryName (Text.lower target) = directoryName target := by
  have hlower : (fun c => Char.toLower (Char.toLower c)) = Char.toLower :=
    funext Char.toLower_toLower_eq_toLower
  rw [directoryName_eq, directoryName_eq, Text.lower, String.toList_ofList, wordChars_map_toLower,
    leadChars_map_toLower, trimUnderscores_map_toLower, List.map_map]
  exact congrArg (fun f => String.ofList (List.map f _)) hlower

/-- **Characters at the end that are neither letters nor digits make no difference.** -/
theorem directoryName_append (target : String) {ending : String}
    (h : ∀ c ∈ ending.toList, c.isAlphanum = false) :
    directoryName (target ++ ending) = directoryName target := by
  have hunderscores : ∀ c ∈ wordChars ending.toList, c = '_' := by
    intro c hc
    obtain ⟨d, hd, rfl⟩ := List.mem_map.mp hc
    have hword : isWord d = (d == '_') := by rw [isWord, h d hd, Bool.false_or]
    rw [hword]
    split
    · next hd => exact beq_iff_eq.mp hd
    · rfl
  have happend : wordChars (target.toList ++ ending.toList) =
      wordChars target.toList ++ wordChars ending.toList := List.map_append
  have htrim : trimUnderscores (leadChars (wordChars target.toList ++ wordChars ending.toList)) =
      trimUnderscores (leadChars (wordChars target.toList)) := by
    cases wordChars target.toList with
    | nil =>
      -- nothing but underscores is left, whether one is put in front or not
      have hall : ∀ c ∈ leadChars (wordChars ending.toList), c = '_' := by
        cases hchars : wordChars ending.toList with
        | nil => simp [leadChars]
        | cons c rest =>
          rw [hchars] at hunderscores
          obtain rfl := hunderscores c List.mem_cons_self
          exact hunderscores
      rw [List.nil_append]
      exact trimUnderscores_append [] hall
    | cons c rest =>
      rw [List.cons_append, leadChars, leadChars]
      split
      · exact trimUnderscores_append ('_' :: c :: rest) hunderscores
      · exact trimUnderscores_append (c :: rest) hunderscores
  rw [directoryName_eq, String.toList_append, happend, htrim, ← directoryName_eq]

/-- What a directory of a target is called: small letters, digits and underscores, with no digit at
the front and no underscore at the end. The name may be empty. -/
structure IsDirectoryName (name : String) : Prop where
  chars : ∀ c ∈ name.toList, c.isLower = true ∨ c.isDigit = true ∨ c = '_'
  head : ∀ c ∈ name.toList.head?, c.isDigit = false
  last : name.toList.getLast? ≠ some '_'

/-- **The files of every target have such a name in common.** -/
theorem isDirectoryName_directoryName (target : String) :
    IsDirectoryName (directoryName target) := by
  have hwordlike := wordlike_leadChars fun c (hc : c ∈ wordChars target.toList) =>
    isWord_of_mem_wordChars hc
  have hword := hwordlike.word
  obtain ⟨first, hfirst, hdigit⟩ := hwordlike.lead
  rw [String.toList_ofList] at hword hfirst
  have hbegin := List.rdropWhile_prefix (· = '_') (leadChars (wordChars target.toList))
  rw [← trimUnderscores_eq] at hbegin
  rw [directoryName_eq]
  refine ⟨?_, ?_, ?_⟩
  · intro c hc
    rw [String.toList_ofList] at hc
    obtain ⟨word, hmem, rfl⟩ := List.mem_map.mp hc
    have hisWord := hword word (hbegin.subset hmem)
    rw [isWord, Char.isAlphanum, Bool.or_eq_true, Bool.or_eq_true, beq_iff_eq] at hisWord
    rw [Char.isLower_toLower_eq_isAlpha, Text.isDigit_toLower, Text.toLower_eq_underscore_iff]
    tauto
  · intro c hc
    rw [String.toList_ofList, List.head?_map] at hc
    obtain ⟨front, hfront, rfl⟩ := Option.map_eq_some_iff.mp hc
    obtain ⟨more, hmore⟩ := hbegin
    rw [← hmore, List.head?_append, hfront, Option.some_or] at hfirst
    obtain rfl := Option.some.inj hfirst
    rw [Text.isDigit_toLower, hdigit]
  · intro hlast
    rw [String.toList_ofList, List.getLast?_map] at hlast
    obtain ⟨back, hback, hunderscore⟩ := Option.map_eq_some_iff.mp hlast
    rw [Text.toLower_eq_underscore_iff] at hunderscore
    exact getLast?_trimUnderscores _ (hunderscore ▸ hback)

/-! ## The paths of a target -/

/-- Such a name holds neither separators nor points. -/
theorem IsDirectoryName.plain {name : String} (h : IsDirectoryName name) :
    '/' ∉ name.toList ∧ '.' ∉ name.toList := by
  have hnone : ∀ c ∈ ['/', '.'], c ∉ name.toList := by
    intro c hc hmem
    have hchar := h.chars c hmem
    fin_cases hc
    · exact absurd hchar (by decide)
    · exact absurd hchar (by decide)
  exact ⟨hnone _ (by simp), hnone _ (by simp)⟩

/-- The names on the way to the directory of a target: none if its name is empty. -/
def directoryNames (target : String) : List (List Char) :=
  if directoryName target = "" then [] else [(directoryName target).toList]

/-- The names on the way from the directory of the objects to that of a target. -/
def objectNames (target : String) : List (List Char) :=
  directoryNames target ++ ["device.o".toList]

/-- The names on the way from the directory of the generated sources to that of a target. -/
def generatedNames (target : String) : List (List Char) :=
  [(directoryName target ++ "_kernels.rs").toList]

/-- The file of a usual generated source has no separator in its name. -/
theorem separator_not_mem_generated (target : String) :
    '/' ∉ (directoryName target ++ "_kernels.rs").toList := by
  rw [String.toList_append, List.mem_append, not_or]
  exact ⟨(isDirectoryName_directoryName target).plain.1, by decide⟩

/-- A path leads to a directory of a target. -/
theorem leads_join_directoryName (base : Path) (target : String) :
    base.Leads (base.join (directoryName target)) (directoryNames target) := by
  obtain ⟨hsep, hpoint⟩ := (isDirectoryName_directoryName target).plain
  exact Path.leads_join base _ hsep fun hhead => hpoint (List.mem_of_head? hhead)

variable (layout : Layout)

/-- The directory of the objects leads to that of a target, which leads to its object. -/
theorem leads_objectPath (target : String) :
    layout.buildDir.Leads (layout.objectPath target) (objectNames target) := by
  have hobject := Path.leads_join (layout.buildDir.join (directoryName target)) "device.o"
    (by decide) (by decide)
  exact (leads_join_directoryName layout.buildDir target).trans hobject

/-- The directory of the generated sources leads to that of a target. -/
theorem leads_generatedPath (target : String) :
    layout.generatedDir.Leads (layout.generatedPath target) (generatedNames target) := by
  have hne : directoryName target ++ "_kernels.rs" ≠ "" := by simp
  have hpoint : (directoryName target ++ "_kernels.rs").toList.head? ≠ some '.' := by
    intro hhead
    rw [String.toList_append, List.head?_append] at hhead
    cases hfirst : (directoryName target).toList.head? with
    | none =>
      rw [hfirst] at hhead
      exact absurd hhead (by decide)
    | some c =>
      rw [hfirst] at hhead
      apply (isDirectoryName_directoryName target).plain.2
      exact List.mem_of_head? (hfirst.trans hhead)
  have hleads := Path.leads_join layout.generatedDir _ (separator_not_mem_generated target) hpoint
  rw [if_neg hne] at hleads
  exact hleads

/-- **Objects are the same** exactly if their directories have the same name. -/
theorem same_objectPath_iff (target other : String) :
    (layout.objectPath target).same (layout.objectPath other) = true ↔
      directoryName target = directoryName other := by
  rw [Path.same, beq_iff_eq, (layout.leads_objectPath target).components_eq,
    (layout.leads_objectPath other).components_eq, List.append_cancel_left_eq,
    List.map_inj_right fun _ _ h => Path.Component.name_injective h, objectNames, objectNames,
    List.append_cancel_right_eq, directoryNames, directoryNames]
  constructor
  · intro h
    split at h <;> split at h
    · next hfirst hsecond => rw [hfirst, hsecond]
    · exact absurd h (by simp)
    · exact absurd h (by simp)
    · exact String.toList_injective (List.cons.inj h).1
  · intro h
    rw [h]

/-- **Usual generated sources are the same** exactly if the directories have the same name. -/
theorem same_generatedPath_iff (target other : String) :
    (layout.generatedPath target).same (layout.generatedPath other) = true ↔
      directoryName target = directoryName other := by
  rw [Path.same, beq_iff_eq, (layout.leads_generatedPath target).components_eq,
    (layout.leads_generatedPath other).components_eq, List.append_cancel_left_eq,
    List.map_inj_right fun _ _ h => Path.Component.name_injective h, generatedNames,
    generatedNames, List.singleton_inj, String.toList_append, String.toList_append,
    List.append_cancel_right_eq, String.toList_inj]

theorem getLast?_buildDir : layout.buildDir.text.toList.getLast? = some 'd' :=
  Path.getLast?_text_join _ (by decide) (by decide)

theorem getLast?_generatedDir : layout.generatedDir.text.toList.getLast? = some 'd' :=
  Path.getLast?_text_join _ (by decide) (by decide)

/-- **How the path of an object is written**: without a second separator where the directory name is
empty. -/
theorem text_objectPath (target : String) :
    (layout.objectPath target).text =
      layout.buildDir.text ++
        (if directoryName target = "" then "" else "/" ++ directoryName target) ++ "/device.o" := by
  have hobject : (Path.mk "device.o").isAbsolute = false := by decide
  obtain ⟨hsep, -⟩ := (isDirectoryName_directoryName target).plain
  have hrelative := Path.isAbsolute_of_not_mem hsep
  have hdirectory := Path.text_join layout.getLast?_buildDir (by decide) hrelative
  rw [objectPath]
  split
  · next hempty =>
    have hlast : (layout.buildDir.join (directoryName target)).text.toList.getLast? = some '/' := by
      rw [hdirectory, hempty]
      simp
    rw [Path.text_join_of_separator hlast hobject, hdirectory, hempty]
    simp [String.append_assoc]
  · next hne =>
    have hchars : (directoryName target).toList ≠ [] := by simpa using hne
    have hlast := (Path.getLast?_text_join layout.buildDir hsep hchars).trans
      (List.getLast?_eq_some_getLast hchars)
    have hlastSep : (directoryName target).toList.getLast hchars ≠ '/' := fun heq =>
      hsep (heq ▸ List.getLast_mem hchars)
    rw [Path.text_join hlast hlastSep hobject, hdirectory]
    simp [String.append_assoc]

/-- **How the path of a usual generated source is written.** -/
theorem text_generatedPath (target : String) :
    (layout.generatedPath target).text =
      layout.generatedDir.text ++ "/" ++ directoryName target ++ "_kernels.rs" := by
  have hrelative := Path.isAbsolute_of_not_mem (separator_not_mem_generated target)
  rw [generatedPath, Path.text_join layout.getLast?_generatedDir (by decide) hrelative,
    ← String.append_assoc]

/-- **The name of a target cannot lead out of the build tree, and targets meet only by name.**
Whatever it is called, the object of a target is `device.o` in the directory of its name below that
of the objects, or in the latter itself if the name is empty, and its usual generated source stands
right below the directory of those; this holds of the written paths, of their components and of what
is left once every `..` is resolved. Two targets have the same object exactly if they have the same
usual generated source, and exactly if the directory names are equal; the case of letters and
characters at the end that are neither letters nor digits do not count. -/
theorem target_paths_within (layout : Layout) (target : String) :
    IsDirectoryName (directoryName target) ∧
    ((layout.objectPath target).text = layout.buildDir.text ++
        (if directoryName target = "" then "" else "/" ++ directoryName target) ++ "/device.o" ∧
      (layout.generatedPath target).text =
        layout.generatedDir.text ++ "/" ++ directoryName target ++ "_kernels.rs") ∧
    (layout.buildDir.Leads (layout.objectPath target) (objectNames target) ∧
      (layout.objectPath target).resolved = layout.buildDir.resolved ++ objectNames target) ∧
    (layout.generatedDir.Leads (layout.generatedPath target) (generatedNames target) ∧
      (layout.generatedPath target).resolved =
        layout.generatedDir.resolved ++ generatedNames target) ∧
    (∀ other, [layout.objectPath target = layout.objectPath other,
      (layout.objectPath target).same (layout.objectPath other) = true,
      layout.generatedPath target = layout.generatedPath other,
      (layout.generatedPath target).same (layout.generatedPath other) = true,
      directoryName target = directoryName other].TFAE) ∧
    (∀ other, Text.lower target = Text.lower other →
      directoryName target = directoryName other) ∧
    (∀ first second : String, (∀ c ∈ first.toList ++ second.toList, c.isAlphanum = false) →
      directoryName (target ++ first) = directoryName (target ++ second)) := by
  refine ⟨isDirectoryName_directoryName target,
    ⟨layout.text_objectPath target, layout.text_generatedPath target⟩,
    ⟨layout.leads_objectPath target, (layout.leads_objectPath target).resolved_eq⟩,
    ⟨layout.leads_generatedPath target, (layout.leads_generatedPath target).resolved_eq⟩,
    ?_, ?_, ?_⟩
  · intro other
    tfae_have 1 → 2 := fun h => by rw [h, Path.same, beq_self_eq_true]
    tfae_have 3 → 4 := fun h => by rw [h, Path.same, beq_self_eq_true]
    tfae_have 2 ↔ 5 := layout.same_objectPath_iff target other
    tfae_have 4 ↔ 5 := layout.same_generatedPath_iff target other
    tfae_have 5 → 1 := fun h => by rw [objectPath, h, objectPath]
    tfae_have 5 → 3 := fun h => by rw [generatedPath, h, generatedPath]
    tfae_finish
  · intro other hlower
    rw [← directoryName_lower, hlower, directoryName_lower]
  · intro first second hending
    rw [List.forall_mem_append] at hending
    rw [directoryName_append target hending.1, directoryName_append target hending.2]

/-- Targets whose names go back, hold separators and end differently, in letters of either case. -/
theorem target_paths_within_goingBack :
    Text.lower "../../Loop" = Text.lower "../../lOOP" ∧
      directoryName "../../Loop" = directoryName "../../lOOP" ∧
      directoryName ("../../Loop" ++ "/..") = directoryName ("../../Loop" ++ "_é") ∧
      directoryName "../../Loop" = "______loop" := by
  obtain ⟨-, -, -, -, -, hcase, hending⟩ := target_paths_within ⟨⟨"/p"⟩⟩ "../../Loop"
  have hlower : Text.lower "../../Loop" = Text.lower "../../lOOP" := by decide +kernel
  have hnone : ∀ c ∈ "/..".toList ++ "_é".toList, c.isAlphanum = false := by simp
  exact ⟨hlower, hcase _ hlower, hending _ _ hnone, by decide +kernel⟩

end Layout

end KernelCatalog
