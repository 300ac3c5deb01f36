import KernelCatalog.Build.Compiler
import KernelCatalog.Proofs.Text.Fill
import Mathlib.Data.List.Forall2

/-!
# Placeholders in arguments

The arguments of a command are filled in one kind of placeholder after the other, so a path that
holds the text of a placeholder is filled in as well, and so is a placeholder that arises where a
value meets the text around it. What one pass over the argument gives tells when that does not
happen: it holds no placeholder but that of the source, which is filled in first.

* `expandArgs_agree_with_one_pass`: arguments that are filled in as one pass would.
* `placeholder_in_path_is_filled_in`: a source whose path is changed on its way to the program.
-/

namespace KernelCatalog.Command

/-- The placeholders with the values of a request, by their characters. -/
def marks (request : CompileRequest) : List (List Char × List Char) :=
  (placeholders request).map fun (mark, value) => (mark.toList, value.toList)

/-- An argument with all placeholders filled in at once, in one pass from left to right. -/
def fillIn (request : CompileRequest) (arg : String) : String :=
  String.ofList (Text.fill (marks request) arg.toList)

/-- A text that holds no placeholder but the one that is filled in first. -/
def Settled (request : CompileRequest) (text : String) : Prop :=
  ∀ later ∈ (marks request).tail, ¬ later.1 <:+: text.toList

instance (request : CompileRequest) (text : String) : Decidable (Settled request text) :=
  inferInstanceAs (Decidable (∀ later ∈ (marks request).tail, _))

theorem separate_marks (request : CompileRequest) : Text.Separate '\x7b' (marks request) where
  starts := by
    simp [marks, placeholders]
  apart := by
    simp [marks, placeholders]

/-- Replacing one text after the other is filling in one mark after the other. -/
theorem toList_foldl_replace {entries : List (String × String)}
    (hne : ∀ entry ∈ entries, entry.1.toList ≠ []) (text : String) :
    (entries.foldl (fun text (name, value) => Text.replace text name value) text).toList =
      (entries.map fun (mark, value) => (mark.toList, value.toList)).foldl
        (fun text entry => Text.fill [entry] text) text.toList := by
  induction entries generalizing text with
  | nil => rfl
  | cons entry rest ih =>
    obtain ⟨hentry, hrest⟩ := List.forall_mem_cons.mp hne
    rw [List.foldl_cons, List.map_cons, List.foldl_cons, ih hrest, Text.replace_eq_fill text hentry]

/-- An argument is filled in as by one pass if what that gives is settled. -/
theorem expand_eq_fillIn {request : CompileRequest} {arg : String}
    (h : Settled request (fillIn request arg)) : expand request arg = fillIn request arg := by
  have hne : ∀ entry ∈ placeholders request, entry.1.toList ≠ [] := by simp [placeholders]
  rw [Settled, fillIn, String.toList_ofList] at h
  rw [← String.toList_inj, expand, toList_foldl_replace hne, fillIn, String.toList_ofList]
  exact Text.foldl_fill (separate_marks request) h

/-- **One kind of placeholder after the other** comes to what one pass gives, for every argument
where that holds no placeholder but the one that is filled in first. -/
theorem expandArgs_agree_with_one_pass (command : Command) (request : CompileRequest) :
    List.Forall₂ (fun arg text => Settled request (fillIn request arg) →
      text = fillIn request arg) command.args (command.expandArgs request) := by
  rw [expandArgs, List.forall₂_map_right_iff, List.forall₂_same]
  exact fun arg _ => expand_eq_fillIn

/-- A source below a directory that is named like a placeholder. -/
def bracedRequest : CompileRequest :=
  ⟨⟨"/w/\x7bside\x7d/k.hip"⟩, .amdgpu, none, ⟨"/w/out/k.o"⟩, .device⟩

/-- An argument that names the output and the architecture, between other braces. -/
def bracedArg : String := "\x7b-o\x7boutput\x7d\x7d\x7barch\x7d"

/-- The argument does not name the source, and no placeholder arises in it. -/
theorem expandArgs_agree_with_one_pass_braced :
    Settled bracedRequest (fillIn bracedRequest bracedArg) ∧
      (Command.mk "cc" [bracedArg]).expandArgs bracedRequest =
        ["\x7b-o/w/out/k.o\x7damdgpu"] := by
  have hsettled : Settled bracedRequest (fillIn bracedRequest bracedArg) := by decide +kernel
  have hfilled : fillIn bracedRequest bracedArg = "\x7b-o/w/out/k.o\x7damdgpu" := by decide +kernel
  have hargs := expandArgs_agree_with_one_pass ⟨"cc", [bracedArg]⟩ bracedRequest
  obtain ⟨text, _, hagree, hrest, htexts⟩ := List.forall₂_cons_left_iff.mp hargs
  rw [List.forall₂_nil_left_iff.mp hrest, hagree hsettled, hfilled] at htexts
  exact ⟨hsettled, htexts⟩

/-- **A path is changed on its way to the program** where it holds a placeholder, and a placeholder
arises where a target without processor leaves nothing between braces. -/
theorem placeholder_in_path_is_filled_in :
    (Command.mk "cc" ["\x7bsource\x7d"]).expandArgs bracedRequest = ["/w/device/k.hip"] ∧
      fillIn bracedRequest "\x7bsource\x7d" = "/w/\x7bside\x7d/k.hip" ∧
    (Command.mk "cc" ["\x7bsi\x7bprocessor\x7dde\x7d"]).expandArgs bracedRequest = ["device"] ∧
      fillIn bracedRequest "\x7bsi\x7bprocessor\x7dde\x7d" = "\x7bside\x7d" := by
  decide +kernel

end KernelCatalog.Command
